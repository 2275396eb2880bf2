import Mathlib.Data.List.TakeWhile
import ImageTools.Proofs.PathPlaces

/-!
# The directories above a path

Taking the last name off a path takes off the last of its components and
nothing else, so what `ancestors` visits is counted by components, not by
slashes. A relative path ends up empty; an absolute one ends up as the root.
-/

set_option autoImplicit false

namespace ImageTools.Path

/-! ## Components -/

def lead (path : String) : List String :=
  if isAbsolute path then ["/"] else if (names path).head? = some "." then ["."] else []

def components (path : String) : List String := lead path ++ steps (names path)

theorem isStep_piece (piece : List Char) : isStep (String.ofList piece) = !idle piece := by
  have hempty : String.ofList piece = "" ↔ piece = [] := by simp [← String.toList_inj]
  have hdot : String.ofList piece = "." ↔ piece = ['.'] := by simp [← String.toList_inj]
  rw [Bool.eq_iff_iff]
  simp [isStep, idle, hempty, hdot]

theorem steps_pieces (ps : List (List Char)) :
    steps (ps.map String.ofList) = (ps.filter fun p => !idle p).map String.ofList := by
  rw [steps, List.filter_map]
  congr 2
  exact funext isStep_piece

theorem pieces_no_slash (cs : List Char) : ∀ p ∈ pieces cs, '/' ∉ p := by
  induction cs with
  | nil => simp [pieces]
  | cons c cs ih =>
    by_cases hc : c = '/'
    · simpa [pieces, hc] using ih
    · obtain ⟨p, ps, hps⟩ := List.exists_cons_of_ne_nil (pieces_ne_nil cs)
      rw [hps, List.forall_mem_cons] at ih
      rw [pieces, if_neg hc, hps, List.forall_mem_cons]
      exact ⟨by simp [Ne.symm hc, ih.1], ih.2⟩

theorem pieces_unite (ps : List (List Char)) (hne : ps ≠ []) (h : ∀ p ∈ ps, '/' ∉ p) :
    pieces (unite ps) = ps := by
  fun_induction unite ps with
  | case1 => exact absurd rfl hne
  | case2 p => exact pieces_of_no_slash p (h p (by simp))
  | case3 p q ps ih =>
    rw [pieces_append_slash, pieces_of_no_slash p (h p (by simp)),
      ih (by simp) fun p hp => h p (List.mem_cons_of_mem _ hp)]
    rfl

/-! ## The start of a path -/

theorem pieces_cons (c : Char) (cs : List Char) (hc : c ≠ '/') :
    ∃ p ps, pieces cs = p :: ps ∧ pieces (c :: cs) = (c :: p) :: ps := by
  obtain ⟨p, ps, hps⟩ := List.exists_cons_of_ne_nil (pieces_ne_nil cs)
  exact ⟨p, ps, hps, by simp [pieces, hc, hps]⟩

theorem pieces_empty_first (cs : List Char) (ps : List (List Char)) (h : pieces cs = [] :: ps) :
    cs = [] ∨ ∃ r, cs = '/' :: r := by
  cases cs with
  | nil => exact Or.inl rfl
  | cons c r =>
    by_cases hc : c = '/'
    · exact Or.inr ⟨r, by rw [hc]⟩
    · obtain ⟨p, qs, -, hcr⟩ := pieces_cons c r hc
      rw [hcr] at h
      cases h

/-- What is anchored; anything else is empty or begins with a name. -/
theorem anchor_cases (cs : List Char) :
    (∃ r, cs = '/' :: r ∧ anchor cs = (['/'], r)) ∨ (cs = ['.'] ∧ anchor cs = (['.'], [])) ∨
    (∃ r, cs = '.' :: '/' :: r ∧ anchor cs = (['.'], '/' :: r)) ∨
    (anchor cs = ([], cs) ∧ (cs = [] ∨ ∃ p ps, pieces cs = p :: ps ∧ idle p = false)) := by
  unfold anchor
  split
  · exact Or.inl ⟨_, rfl, rfl⟩
  · exact Or.inr (Or.inl ⟨rfl, rfl⟩)
  · exact Or.inr (Or.inr (Or.inl ⟨_, rfl, rfl⟩))
  · rename_i hroot hdot hslash
    refine Or.inr (Or.inr (Or.inr ⟨rfl, ?_⟩))
    cases cs with
    | nil => exact Or.inl rfl
    | cons c r =>
      have hc : c ≠ '/' := by
        rintro rfl
        exact hroot r rfl
      obtain ⟨p, ps, hr, hcr⟩ := pieces_cons c r hc
      refine Or.inr ⟨c :: p, ps, hcr, ?_⟩
      have hname : c = '.' → p ≠ [] := by
        rintro rfl rfl
        rcases pieces_empty_first r ps hr with rfl | ⟨r, rfl⟩
        · exact hdot rfl
        · exact hslash r rfl
      simpa [idle] using hname

theorem anchor_named (cs p : List Char) (ps : List (List Char)) (hp : pieces cs = p :: ps)
    (hidle : idle p = false) : anchor cs = ([], cs) := by
  rcases anchor_cases cs with ⟨r, rfl, -⟩ | ⟨rfl, -⟩ | ⟨r, rfl, -⟩ | ⟨h, -⟩
  · obtain ⟨rfl, -⟩ := List.cons.inj hp
    cases hidle
  · obtain ⟨rfl, -⟩ := List.cons.inj hp
    cases hidle
  · obtain ⟨rfl, -⟩ := List.cons.inj hp
    cases hidle
  · exact h

/-- A path cut off behind a name is anchored as before. -/
theorem anchor_unite (cs : List Char) (keep tail : List (List Char))
    (hpieces : pieces (anchor cs).2 = keep ++ tail)
    (hlast : ∀ p, keep.getLast? = some p → idle p = false) :
    anchor ((anchor cs).1 ++ unite keep) = ((anchor cs).1, unite keep) := by
  have hidle : keep ≠ [[]] := by
    rintro rfl
    cases hlast [] rfl
  rcases anchor_cases cs with ⟨r, rfl, h⟩ | ⟨rfl, h⟩ | ⟨r, rfl, h⟩ | ⟨h, hfirst⟩
  · rw [h]
    rfl
  · rw [h] at hpieces ⊢
    cases keep with
    | nil => rfl
    | cons p keep =>
      obtain ⟨rfl, hrest⟩ := List.cons.inj hpieces
      obtain ⟨rfl, -⟩ := List.append_eq_nil_iff.1 hrest.symm
      exact absurd rfl hidle
  · rw [h] at hpieces ⊢
    cases keep with
    | nil => rfl
    | cons p keep =>
      obtain ⟨rfl, -⟩ := List.cons.inj hpieces
      cases keep with
      | nil => exact absurd rfl hidle
      | cons q keep => rfl
  · rw [h] at hpieces ⊢
    cases keep with
    | nil => rfl
    | cons p keep =>
      have hkeep : pieces (unite (p :: keep)) = p :: keep := by
        refine pieces_unite _ (by simp) fun q hq => pieces_no_slash cs q ?_
        rw [hpieces]
        exact List.mem_append_left tail hq
      refine anchor_named _ p keep hkeep ?_
      rcases hfirst with rfl | ⟨q, qs, hcs, hq⟩
      · obtain ⟨rfl, hrest⟩ := List.cons.inj hpieces
        obtain ⟨rfl, -⟩ := List.append_eq_nil_iff.1 hrest.symm
        exact absurd rfl hidle
      · rw [hcs] at hpieces
        obtain ⟨rfl, -⟩ := List.cons.inj hpieces
        exact hq

theorem isAbsolute_anchor (path : String) :
    isAbsolute path = ((anchor path.toList).1 == ['/']) := by
  unfold isAbsolute
  generalize path.toList = cs
  rcases anchor_cases cs with ⟨r, rfl, -⟩ | ⟨rfl, -⟩ | ⟨r, rfl, -⟩ | ⟨h, hfirst⟩
  · rfl
  · rfl
  · rfl
  · rw [h]
    rcases hfirst with rfl | ⟨p, ps, hcs, hp⟩
    · rfl
    · cases cs with
      | nil => rfl
      | cons c r =>
        have hc : c ≠ '/' := by
          rintro rfl
          obtain ⟨rfl, -⟩ := List.cons.inj hcs
          cases hp
        simpa using hc

theorem components_anchor (path : String) :
    components path =
      (if (anchor path.toList).1 = [] then [] else [String.ofList (anchor path.toList).1]) ++
        steps ((pieces (anchor path.toList).2).map String.ofList) := by
  rw [components, lead, isAbsolute_anchor, names]
  generalize path.toList = cs
  rcases anchor_cases cs with ⟨r, rfl, -⟩ | ⟨rfl, -⟩ | ⟨r, rfl, -⟩ | ⟨h, hfirst⟩
  · rfl
  · rfl
  · rfl
  · rw [h]
    rcases hfirst with rfl | ⟨p, ps, hcs, hp⟩
    · rfl
    · have hdot : String.ofList p ≠ "." := by
        intro hdot
        obtain rfl : p = ['.'] := by simpa using congrArg String.toList hdot
        cases hp
      simp [hcs, hdot]

/-! ## Taking the last name off -/

structure Cut (ps keep : List (List Char)) (name : List Char) : Prop where
  split : ∃ between after, ps = keep ++ (between ++ name :: after) ∧
    (∀ p ∈ between, idle p = true) ∧ ∀ p ∈ after, idle p = true
  name : idle name = false
  last : ∀ p, keep.getLast? = some p → idle p = false

theorem pop?_cases (path : String) :
    ((∀ p ∈ pieces (anchor path.toList).2, idle p = true) ∧
      pop? path = if (anchor path.toList).1 = ['.'] then some "" else none) ∨
    ∃ keep name, Cut (pieces (anchor path.toList).2) keep name ∧
      pop? path = some (String.ofList ((anchor path.toList).1 ++ unite keep)) := by
  generalize hps : pieces (anchor path.toList).2 = ps
  cases hname : ps.reverse.dropWhile idle with
  | nil =>
    refine Or.inl ⟨fun p hp => ?_, by rw [pop?, hps, hname]⟩
    exact List.dropWhile_eq_nil_iff.1 hname p (List.mem_reverse.2 hp)
  | cons name r =>
    refine Or.inr ⟨(r.dropWhile idle).reverse, name, ⟨?_, head_not_idle _ _ _ hname, ?_⟩, ?_⟩
    · refine ⟨(r.takeWhile idle).reverse, (ps.reverse.takeWhile idle).reverse, ?_, ?_, ?_⟩
      · have hwhole := List.takeWhile_append_dropWhile (p := idle) (l := ps.reverse)
        have hrest := List.takeWhile_append_dropWhile (p := idle) (l := r)
        rw [hname] at hwhole
        calc ps
          _ = (ps.reverse.takeWhile idle ++
                name :: (r.takeWhile idle ++ r.dropWhile idle)).reverse := by
            rw [hrest, hwhole, List.reverse_reverse]
          _ = _ := by
            simp only [List.reverse_append, List.reverse_cons, List.append_assoc,
              List.singleton_append]
      · exact fun p hp => List.mem_takeWhile_imp (List.mem_reverse.1 hp)
      · exact fun p hp => List.mem_takeWhile_imp (List.mem_reverse.1 hp)
    · intro p hp
      rw [List.getLast?_reverse] at hp
      cases hr : r.dropWhile idle with
      | nil => simp [hr] at hp
      | cons q qs =>
        obtain rfl : q = p := by simpa [hr] using hp
        exact head_not_idle _ _ _ hr
    · rw [pop?, hps, hname]

theorem steps_idle (ps : List (List Char)) (h : ∀ p ∈ ps, idle p = true) :
    steps (ps.map String.ofList) = [] := by
  rw [steps_pieces, List.map_eq_nil_iff, List.filter_eq_nil_iff]
  exact fun p hp => by simp [h p hp]

theorem Cut.steps {ps keep : List (List Char)} {name : List Char} (h : Cut ps keep name) :
    Path.steps (ps.map String.ofList) =
      Path.steps (keep.map String.ofList) ++ [String.ofList name] := by
  obtain ⟨between, after, rfl, hbetween, hafter⟩ := h.split
  have hname : Path.steps ((name :: after).map String.ofList) = [String.ofList name] := by
    have hstep := isStep_piece name
    rw [h.name] at hstep
    rw [List.map_cons, Path.steps, List.filter_cons_of_pos hstep]
    exact congrArg _ (steps_idle after hafter)
  rw [List.map_append, List.map_append, steps_append, steps_append, steps_idle between hbetween,
    hname, List.nil_append]

/-- What is kept ends with a name, unless nothing is kept. -/
theorem Cut.keep_nil {ps keep : List (List Char)} {name : List Char} (h : Cut ps keep name)
    (hsteps : Path.steps (keep.map String.ofList) = []) : keep = [] := by
  by_contra hne
  have hlast := h.last _ (List.getLast?_eq_some_getLast hne)
  rw [steps_pieces, List.map_eq_nil_iff, List.filter_eq_nil_iff] at hsteps
  exact hsteps _ (List.getLast_mem hne) (by simp [hlast])

theorem steps_unite (keep : List (List Char)) (h : ∀ p ∈ keep, '/' ∉ p) :
    steps ((pieces (unite keep)).map String.ofList) = steps (keep.map String.ofList) := by
  cases keep with
  | nil => rfl
  | cons p keep => rw [pieces_unite _ (by simp) h]

/-- The last component goes, and only that. -/
theorem components_pop (path rest : String) (h : pop? path = some rest) :
    isAbsolute rest = isAbsolute path ∧
    (∃ name, components path = components rest ++ [name]) ∧
    (isAbsolute path = true → components rest = ["/"] → rest = "/") := by
  rcases pop?_cases path with ⟨hidle, hpop⟩ | ⟨keep, name, hcut, hpop⟩
  · rw [hpop, Option.ite_none_right_eq_some] at h
    obtain ⟨hdot, hrest⟩ := h
    obtain rfl := Option.some.inj hrest
    refine ⟨?_, ⟨".", ?_⟩, fun _ hroot => by cases hroot⟩
    · rw [isAbsolute_anchor path, hdot]
      rfl
    · rw [components_anchor path, hdot, steps_idle _ hidle]
      rfl
  · rw [hpop] at h
    obtain rfl := Option.some.inj h
    obtain ⟨between, after, hsplit, -, -⟩ := hcut.split
    have hanchor := anchor_unite path.toList keep _ hsplit hcut.last
    have hslash : ∀ p ∈ keep, '/' ∉ p := fun p hp =>
      pieces_no_slash _ p (hsplit ▸ List.mem_append_left _ hp)
    have hcomponents : components path = components
        (String.ofList ((anchor path.toList).1 ++ unite keep)) ++ [String.ofList name] := by
      rw [components_anchor path, components_anchor (String.ofList _), String.toList_ofList,
        hanchor, hcut.steps, steps_unite keep hslash, List.append_assoc]
    refine ⟨?_, ⟨_, hcomponents⟩, fun habs hroot => ?_⟩
    · rw [isAbsolute_anchor, isAbsolute_anchor path, String.toList_ofList, hanchor]
    · rw [isAbsolute_anchor, beq_iff_eq] at habs
      rw [components_anchor, String.toList_ofList, hanchor, steps_unite keep hslash, habs] at hroot
      obtain rfl := hcut.keep_nil (by simpa using hroot)
      rw [habs]
      rfl

theorem pop?_eq_none (path : String) (h : pop? path = none) :
    (isAbsolute path = true ∧ components path = ["/"]) ∨ path = "" := by
  rcases pop?_cases path with ⟨hidle, hpop⟩ | ⟨keep, name, -, hpop⟩
  · rw [isAbsolute_anchor, components_anchor, steps_idle _ hidle]
    rw [hpop] at h
    rcases anchor_cases path.toList with ⟨r, -, ha⟩ | ⟨-, ha⟩ | ⟨r, -, ha⟩ | ⟨ha, hfirst⟩
    · exact Or.inl (by rw [ha]; exact ⟨rfl, rfl⟩)
    · simp [ha] at h
    · simp [ha] at h
    · rw [ha] at hidle
      rcases hfirst with hempty | ⟨p, ps, hcs, hp⟩
      · exact Or.inr (String.toList_eq_nil_iff.1 hempty)
      · have hfalse := hidle p (by simp [hcs])
        simp [hp] at hfalse
  · simp [hpop] at h

/-! ## The chain of directories -/

/-- A path, its directory, the directory of that, and so on as long as there is one. -/
inductive Climb : String → List String → Prop
  | top {path : String} : pop? path = none → Climb path [path]
  | up {path parent : String} {chain : List String} : pop? path = some parent →
      Climb parent chain → Climb path (path :: chain)

theorem ancestors_top (path : String) (h : pop? path = none) : ancestors path = [path] := by
  rw [ancestors]
  split
  · rfl
  · rename_i hpop
    simp [h] at hpop

theorem ancestors_up (path parent : String) (h : pop? path = some parent) :
    ancestors path = path :: ancestors parent := by
  rw [ancestors]
  split
  · rename_i hpop
    simp [h] at hpop
  · rename_i rest hpop
    rw [h] at hpop
    rw [Option.some.inj hpop]

/-- There is one such chain, and it comes to an end. -/
theorem climb_iff (path : String) (chain : List String) :
    Climb path chain ↔ chain = ancestors path := by
  constructor
  · intro h
    induction h with
    | top hpop => exact (ancestors_top _ hpop).symm
    | up hpop _ ih => rw [ih, ancestors_up _ _ hpop]
  · rintro rfl
    induction path using ancestors.induct with
    | case1 path hpop =>
      rw [ancestors_top path hpop]
      exact .top hpop
    | case2 path parent hpop ih =>
      rw [ancestors_up path parent hpop]
      exact .up hpop ih

/-- A chain has a directory for each component, and the empty path for one
that is relative. -/
theorem Climb.length {path : String} {chain : List String} (h : Climb path chain) :
    chain.length = (components path).length + if isAbsolute path then 0 else 1 := by
  induction h with
  | top hpop =>
    rcases pop?_eq_none _ hpop with ⟨habs, hroot⟩ | rfl
    · rw [hroot, if_pos habs]
      rfl
    · rfl
  | up hpop _ ih =>
    obtain ⟨habs, ⟨name, hname⟩, -⟩ := components_pop _ _ hpop
    rw [List.length_cons, ih, hname, habs, List.length_append]
    exact Nat.add_right_comm _ _ 1

/-- The last directory of a chain: the root, which is written as one slash
unless the chain begins with it, or the empty path. -/
theorem Climb.last {path : String} {chain : List String} (h : Climb path chain) :
    (isAbsolute path = false → chain.getLast? = some "") ∧
    (isAbsolute path = true → ∃ top, chain.getLast? = some top ∧ components top = ["/"] ∧
      (top = "/" ∨ chain = [path])) := by
  induction h with
  | top hpop =>
    rcases pop?_eq_none _ hpop with ⟨habs, hroot⟩ | rfl
    · exact ⟨fun hrel => by simp [habs] at hrel, fun _ => ⟨_, rfl, hroot, Or.inr rfl⟩⟩
    · exact ⟨fun _ => rfl, fun habs => by cases habs⟩
  | @up path parent chain hpop hclimb ih =>
    obtain ⟨habs, -, hroot⟩ := components_pop _ _ hpop
    rw [habs] at ih
    have hne : chain ≠ [] := by
      cases hclimb <;> simp
    rw [List.getLast?_cons_of_ne_nil hne]
    refine ⟨ih.1, fun hpath => ?_⟩
    obtain ⟨top, htop, hcomponents, hwritten⟩ := ih.2 hpath
    refine ⟨top, htop, hcomponents, Or.inl ?_⟩
    rcases hwritten with hwritten | rfl
    · exact hwritten
    · obtain rfl : parent = top := by simpa using htop
      exact hroot hpath hcomponents

end ImageTools.Path
