import ImageTools.Proofs.PathPlaces

/-!
# Places that a file system tells apart

A file system that holds nothing but one path, directory by directory, has no
other way to its end. So two paths that lead to different places lead apart in
one of these, unless a step up or a name too long for a directory is on the way.
-/

set_option autoImplicit false

namespace ImageTools.FileSystem
open ImageTools.Path

def Plain (name : String) : Prop :=
  isStep name = true ∧ name ≠ ".." ∧ name.utf8ByteSize ≤ nameLimit

instance decidablePlain (name : String) : Decidable (Plain name) :=
  inferInstanceAs (Decidable (_ ∧ _ ∧ _))

def Downward (ns : List String) : Prop := ∀ name ∈ steps ns, Plain name

instance decidableDownward (ns : List String) : Decidable (Downward ns) :=
  inferInstanceAs (Decidable (∀ name ∈ steps ns, Plain name))

theorem Downward.alike {ns ms : List String} (h : Downward ns) (hsteps : steps ms = steps ns) :
    Downward ms := by
  intro name hname
  rw [hsteps] at hname
  exact h name hname

theorem Downward.append {ns ms : List String} (h : Downward ns) (h' : Downward ms) :
    Downward (ns ++ ms) := by
  intro name hname
  rw [steps_append, List.mem_append] at hname
  exact hname.elim (h name) (h' name)

theorem Downward.no_up {ns : List String} (h : Downward ns) : ".." ∉ ns := by
  intro hmem
  have hstep : ".." ∈ steps ns := List.mem_filter.2 ⟨hmem, rfl⟩
  exact (h ".." hstep).2.1 rfl

/-! ## One path and nothing else -/

def rungs : Nat → List String → List Node
  | _, [] => [.directory []]
  | i, name :: ns => .directory [(name, i + 1)] :: rungs (i + 1) ns

def ladder (ns : List String) : FileSystem := { nodes := (rungs 0 ns).toArray, workDir := "/" }

theorem rungs_drop (i : Nat) (ns ms : List String) :
    (rungs i (ns ++ ms)).drop ns.length = rungs (i + ns.length) ms := by
  induction ns generalizing i with
  | nil => rfl
  | cons name ns ih =>
    have hnext : i + (ns.length + 1) = i + 1 + ns.length := by omega
    rw [List.length_cons, hnext]
    exact ih (i + 1)

theorem node?_ladder (ns ms : List String) :
    (ladder (ns ++ ms)).node? ns.length = (rungs ns.length ms).head? := by
  have hdrop := rungs_drop 0 ns ms
  rw [Nat.zero_add] at hdrop
  rw [← hdrop, List.head?_drop]
  simp [node?, ladder]

theorem rungs_directory (i : Nat) (ns : List String) :
    ∀ node ∈ rungs i ns, ∃ entries, node = .directory entries := by
  induction ns generalizing i with
  | nil =>
    intro node hnode
    exact ⟨[], List.mem_singleton.1 hnode⟩
  | cons name ns ih =>
    intro node hnode
    rcases List.mem_cons.1 hnode with rfl | hrest
    · exact ⟨_, rfl⟩
    · exact ih (i + 1) node hrest

theorem ladder_no_link (ns : List String) (i : Nat) (target : String) :
    (ladder ns).node? i ≠ some (.link target) := by
  intro hnode
  have hmem : Node.link target ∈ rungs 0 ns := by
    apply List.mem_of_getElem? (i := i)
    simpa [node?, ladder] using hnode
  obtain ⟨entries, hentries⟩ := rungs_directory 0 ns _ hmem
  exact Node.noConfusion hentries

theorem stride_ladder (ns ms : List String) (t : Trail) (ht : t.last = ns.length)
    (h : ∀ name ∈ ms, Plain name) :
    ∃ t', (ladder (ns ++ ms)).stride false t ms = .arrived t' := by
  induction ms generalizing ns t with
  | nil => exact ⟨t, rfl⟩
  | cons name ms ih =>
    obtain ⟨hstep, hup, hsize⟩ := h name List.mem_cons_self
    have hnode : (ladder (ns ++ name :: ms)).node? t.last =
        some (.directory [(name, ns.length + 1)]) := by
      rw [ht, node?_ladder]
      rfl
    have hidle : ¬ (name = "" ∨ name = ".") := by simpa [isStep] using hstep
    have hlink := ladder_no_link (ns ++ name :: ms) (ns.length + 1)
    obtain ⟨t', ht'⟩ := ih (ns ++ [name]) ((name, ns.length + 1) :: t) (by simp [Trail.last])
      (fun n hn => h n (List.mem_cons_of_mem _ hn))
    refine ⟨t', ?_⟩
    rw [List.append_assoc] at ht'
    rw [stride.eq_2, hnode]
    simp only [hidle, hup, Nat.not_lt.2 hsize, Bool.false_and, Bool.false_eq_true, if_false,
      List.lookup_cons_self]
    exact ht'

/-! ## The way that was followed -/

/-- Names that hold no step up, followed without a link, can be read off the trail. -/
theorem stride_way (fs : FileSystem) (t t' : Trail) (ns : List String) (h : ".." ∉ ns)
    (hs : fs.stride false t ns = .arrived t') :
    t'.map Prod.fst = (steps ns).reverse ++ t.map Prod.fst := by
  induction ns generalizing t with
  | nil =>
    rw [stride.eq_1, Stride.arrived.injEq] at hs
    rw [hs]
    rfl
  | cons name ns ih =>
    have hns : ".." ∉ ns := fun hmem => h (List.mem_cons_of_mem _ hmem)
    have hname : name ≠ ".." := fun heq => h (heq ▸ List.mem_cons_self)
    rw [stride.eq_2] at hs
    split at hs <;> try contradiction
    split at hs
    · rename_i hidle
      have hskip : isStep name = false := by rcases hidle with rfl | rfl <;> rfl
      simpa [steps, hskip] using ih t hns hs
    · rename_i hidle
      have hstep : isStep name = true := by simpa [isStep] using hidle
      simp only [Bool.false_and, Bool.false_eq_true, if_false] at hs
      split at hs <;> try contradiction
      split at hs <;> try contradiction
      split at hs <;> try contradiction
      simpa [steps, hstep] using ih _ hns hs

theorem stride_no_link (fs : FileSystem) (h : ∀ i target, fs.node? i ≠ some (.link target))
    (t stop : Trail) (ns rest : List String) (target : String) :
    fs.stride false t ns ≠ .link stop target rest := by
  induction ns generalizing t with
  | nil => simp [stride]
  | cons name ns ih =>
    intro hs
    rw [stride.eq_2] at hs
    split at hs <;> try contradiction
    split at hs
    · exact ih t hs
    split at hs
    · exact ih t.tail hs
    split at hs <;> try contradiction
    split at hs <;> try contradiction
    split at hs <;> try contradiction
    split at hs
    · rename_i htarget
      exact h _ _ htarget
    · exact ih _ hs

/-- Plain names that lead to different places lead apart where the one path
exists and nothing else does. -/
theorem walk_apart (ns ms : List String) (hns : Downward ns) (hms : Downward ms)
    (hproper : Proper ns) (h : destination ns ≠ destination ms) :
    ∃ fs : FileSystem, fs.walk false linkLimit [] ns ≠ fs.walk false linkLimit [] ms := by
  refine ⟨ladder (steps ns), fun heq => h ?_⟩
  obtain ⟨t, ht⟩ := stride_ladder [] (steps ns) [] rfl hns
  have hfound : (ladder (steps ns)).walk false linkLimit [] ns = .ok (.found t) := by
    rw [← List.nil_append ns, walk_steps _ _ _ _ _ hproper, walk_found]
    exact .arrived ht
  have hup : ".." ∉ steps ns := fun hmem => (hns _ hmem).2.1 rfl
  have hway := stride_way _ _ _ _ hup ht
  rw [heq, walk_found] at hfound
  cases hfound with
  | arrived hms' =>
    have hsteps : (steps ns).reverse = (steps ms).reverse := by
      have hway' := stride_way _ _ _ _ hms.no_up hms'
      simpa [steps, hway'] using hway.symm
    rw [destination, destination, List.reverse_inj.1 hsteps]
  | link hl => exact absurd hl (stride_no_link _ (ladder_no_link _) _ _ _ _ _)

theorem reach_apart (dir dir' path path' : String) (hpath : refused? path = none)
    (hpath' : refused? path' = none) (hdown : Downward (namesFrom dir path))
    (hdown' : Downward (namesFrom dir' path')) (hproper : Proper (names path))
    (h : destination (namesFrom dir path) ≠ destination (namesFrom dir' path')) :
    ∃ fs : FileSystem, { fs with workDir := dir }.reach false path ≠
      { fs with workDir := dir' }.reach false path' := by
  obtain ⟨fs, hfs⟩ := walk_apart _ _ hdown hdown' (hproper.from dir) h
  refine ⟨fs, ?_⟩
  unfold reach
  rw [hpath, hpath']
  simp only [walk_workDir fs dir, walk_workDir fs dir']
  exact hfs

end ImageTools.FileSystem
