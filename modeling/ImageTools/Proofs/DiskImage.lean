import ImageTools.Proofs.TreePaths

/-!
# The image that is filled and the image that is booted

QEMU is given a disk as a list of options, in which commas divide options and
a doubled comma stands for one, or as a file name that is taken whole. The path
of the image is written into both as it is, so that a comma in it names another
file where it stands in a list.
-/

set_option autoImplicit false

namespace ImageTools

namespace Emulator

/-! ## Lists of options -/

/-- The options of a list, with a doubled comma read as one that is part of its
option. -/
def options : List Char → List (List Char)
  | [] => [[]]
  | ',' :: ',' :: cs => (options cs).modifyHead (',' :: ·)
  | c :: cs => if c = ',' then [] :: options cs else (options cs).modifyHead (c :: ·)

theorem options_cons (c : Char) (cs : List Char) (h : c ≠ ',') :
    options (c :: cs) = (options cs).modifyHead (c :: ·) := by
  rw [options]
  · rw [if_neg h]
  · rintro rest rfl
    exact absurd rfl h

theorem options_comma (cs : List Char) (h : cs.head? ≠ some ',') :
    options (',' :: cs) = [] :: options cs := by
  rw [options]
  · rw [if_pos rfl]
  · rintro rest - rfl
    exact absurd rfl h

theorem options_ne_nil (cs : List Char) : options cs ≠ [] := by
  fun_induction options cs with
  | case1 => simp
  | case2 cs ih => simpa using ih
  | case3 => simp
  | case4 c cs _ _ ih => simpa using ih

theorem options_plain (cs : List Char) (h : ',' ∉ cs) : options cs = [cs] := by
  induction cs with
  | nil => rfl
  | cons c cs ih =>
    rw [List.mem_cons, not_or] at h
    rw [options_cons c cs (Ne.symm h.1), ih h.2]
    rfl

theorem modifyHead_append {α : Type} (f : α → α) (xs ys : List α) (h : xs ≠ []) :
    (xs ++ ys).modifyHead f = xs.modifyHead f ++ ys := by
  cases xs with
  | nil => exact absurd rfl h
  | cons x xs => rfl

/-- A comma that stands alone ends the options before it. -/
theorem options_append (cs ds : List Char) (c : Char) (hc : c ≠ ',') (hds : ds.head? ≠ some ',') :
    options (cs ++ c :: ',' :: ds) = options (cs ++ [c]) ++ options ds := by
  fun_induction options cs with
  | case1 =>
    rw [List.nil_append, List.nil_append, options_cons c _ hc, options_cons c _ hc,
      options_comma ds hds]
    rfl
  | case2 cs ih =>
    show (options (cs ++ c :: ',' :: ds)).modifyHead _ = (options (cs ++ [c])).modifyHead _ ++ _
    rw [ih, modifyHead_append _ _ _ (options_ne_nil _)]
  | case3 cs hnext ih =>
    have hhead : ∀ es, (cs ++ c :: es).head? ≠ some ',' := by
      intro es
      cases cs with
      | nil => simpa using hc
      | cons d cs =>
        intro hd
        exact hnext cs rfl ((Option.some.inj hd) ▸ rfl)
    rw [List.cons_append, List.cons_append, options_comma _ (hhead _), options_comma _ (hhead _),
      ih]
    rfl
  | case4 d cs hnext hd ih =>
    rw [List.cons_append, List.cons_append, options_cons d _ hd, options_cons d _ hd, ih,
      modifyHead_append _ _ _ (options_ne_nil _)]

example : options "a,,b,c".toList = ["a,b".toList, "c".toList] := by decide

theorem count_modifyHead (c : Char) (os : List (List Char)) (h : os ≠ []) :
    (os.modifyHead (c :: ·)).flatten.count ',' =
      os.flatten.count ',' + if c = ',' then 1 else 0 := by
  cases os with
  | nil => exact absurd rfl h
  | cons o os =>
    show (c :: (o ++ os.flatten)).count ',' = (o ++ os.flatten).count ',' + _
    rw [List.count_cons]
    simp only [beq_iff_eq]

/-- Each comma of an option is written twice, and each between options once. -/
theorem count_options (cs : List Char) :
    cs.count ',' + 1 = 2 * (options cs).flatten.count ',' + (options cs).length := by
  fun_induction options cs with
  | case1 => rfl
  | case2 cs ih =>
    rw [count_modifyHead ',' _ (options_ne_nil cs), List.length_modifyHead]
    simp only [List.count_cons_self, if_true]
    omega
  | case3 cs hnext ih =>
    rw [List.flatten_cons, List.nil_append, List.length_cons, List.count_cons_self]
    omega
  | case4 c cs hnext hc ih =>
    rw [count_modifyHead c _ (options_ne_nil cs), List.length_modifyHead, if_neg hc,
      List.count_cons_of_ne hc]
    omega

/-- An option that is all of the list holds no comma. -/
theorem plain_of_mem_options (cs : List Char) (h : cs ∈ options cs) : ',' ∉ cs := by
  have hcount := count_options cs
  obtain ⟨front, back, hsplit⟩ := List.append_of_mem h
  rw [hsplit, List.flatten_append, List.flatten_cons, List.count_append, List.count_append,
    List.length_append, List.length_cons] at hcount
  rw [← List.count_eq_zero]
  omega

/-! ## Disk images of a command line -/

def fileOf? : List Char → Option String
  | 'f' :: 'i' :: 'l' :: 'e' :: '=' :: path => some (String.ofList path)
  | _ => none

def driveFiles (value : String) : List String := (options value.toList).filterMap fileOf?

def diskImages : List String → List String
  | [] => []
  | [_] => []
  | option :: value :: rest =>
    if option = "-s" ∨ option = "-S" then diskImages (value :: rest)
    else if option = "-drive" then driveFiles value ++ diskImages rest
    else if option = "-sd" then value :: diskImages rest
    else diskImages rest

theorem driveFiles_disk (image : String) (front : List Char) (h : image.toList = front ++ ['g']) :
    driveFiles ("id=disk,file=" ++ image ++ ",if=none") =
      (options ("file=" ++ image).toList).filterMap fileOf? := by
  have hvalue : ("id=disk,file=" ++ image ++ ",if=none").toList =
      "id=dis".toList ++ 'k' :: ',' ::
        (("file=".toList ++ front) ++ 'g' :: ',' :: "if=none".toList) := by
    simp [h]
  have hfile : ("file=" ++ image).toList = ("file=".toList ++ front) ++ ['g'] := by
    simp [h]
  have hname : (options ("id=dis".toList ++ ['k'])).filterMap fileOf? = [] := rfl
  have hkind : (options "if=none".toList).filterMap fileOf? = [] := rfl
  rw [driveFiles, hvalue, options_append _ _ 'k' (by decide) (by simp),
    options_append _ _ 'g' (by decide) (by decide), hfile, List.filterMap_append,
    List.filterMap_append, hname, hkind, List.nil_append, List.append_nil]

theorem driveFiles_plain (image : String) (h : ',' ∉ image.toList) :
    (options ("file=" ++ image).toList).filterMap fileOf? = [image] := by
  rw [options_plain _ (by simpa using h), String.toList_append]
  show [String.ofList image.toList] = [image]
  rw [String.ofList_toList]

theorem plain_of_mem_driveFiles (image : String)
    (h : image ∈ (options ("file=" ++ image).toList).filterMap fileOf?) : ',' ∉ image.toList := by
  obtain ⟨cs, hcs, hfile⟩ := List.mem_filterMap.1 h
  have htext : cs = ("file=" ++ image).toList := by
    unfold fileOf? at hfile
    split at hfile
    · rw [← Option.some.inj hfile]
      simp
    · contradiction
  have hplain := plain_of_mem_options _ (htext ▸ hcs)
  intro hmem
  exact hplain (by simp [hmem])

theorem diskImages_machine (arch : Arch) (out : String) (stub : List String)
    (h : stub = [] ∨ stub = ["-s", "-S"]) : diskImages (machine arch out ++ stub) =
      match arch with
      | .x86 => driveFiles ("id=disk,file=" ++ diskImagePath out ++ ",if=none")
      | .aarch32 => [diskImagePath out] := by
  rcases h with rfl | rfl <;> cases arch <;> simp [machine, diskImages]

/-- The emulator opens the image under its own path, and nothing else, unless
its options are divided at a comma in that path. -/
theorem diskImages_iff (arch : Arch) (out : String) (stub : List String)
    (h : stub = [] ∨ stub = ["-s", "-S"]) :
    ((arch = .x86 → ',' ∉ out.toList) →
      diskImages (machine arch out ++ stub) = [diskImagePath out]) ∧
    (diskImagePath out ∈ diskImages (machine arch out ++ stub) →
      arch = .x86 → ',' ∉ out.toList) := by
  have hcomma : ',' ∈ (diskImagePath out).toList ↔ ',' ∈ out.toList := by
    simp [diskImagePath]
  rw [diskImages_machine arch out stub h]
  cases arch with
  | aarch32 => simp
  | x86 =>
    have himage : (diskImagePath out).toList = (out ++ "/one.im").toList ++ ['g'] := by
      simp [diskImagePath]
    show (_ → driveFiles _ = _) ∧ (_ ∈ driveFiles _ → _)
    rw [driveFiles_disk _ _ himage]
    constructor
    · intro hout
      apply driveFiles_plain
      rw [hcomma]
      exact hout rfl
    · intro hmem _
      rw [← hcomma]
      exact plain_of_mem_driveFiles _ hmem

end Emulator

namespace ScriptSet
open Script Shell

def bootedImages (contents : String) : List String :=
  (literalCommands contents).flatMap fun words => Emulator.diskImages words.tail

theorem bootedImages_checkedChain (program message : String) (args : List String) :
    bootedImages (checkedChain [(program :: args, message)]).render = Emulator.diskImages args := by
  rw [bootedImages, literalCommands_checkedChain _ (by simp)]
  simp [headerCommands, exitCommands, Emulator.diskImages]

theorem booted_iff (arch : Arch) (outDir program message : String) (stub : List String)
    (h : stub = [] ∨ stub = ["-s", "-S"]) :
    let args := Emulator.machine arch (Path.dropSlash outDir) ++ stub
    let images := bootedImages (checkedChain [(program :: args, message)]).render
    (images = [below outDir "one.img"] ↔ (arch = .x86 → ',' ∉ outDir.toList)) ∧
      (below outDir "one.img" ∈ images ↔ (arch = .x86 → ',' ∉ outDir.toList)) := by
  intro args images
  have himage : below outDir "one.img" = Emulator.diskImagePath (Path.dropSlash outDir) := by
    simp [below, Emulator.diskImagePath, String.append_assoc]
  have himages : images = Emulator.diskImages args := bootedImages_checkedChain program message args
  obtain ⟨hplain, hmem⟩ := Emulator.diskImages_iff arch (Path.dropSlash outDir) stub h
  rw [himages, himage, ← Path.mem_dropSlash outDir ',' (by decide)]
  constructor
  · constructor
    · intro heq
      apply hmem
      rw [heq]
      exact List.mem_singleton_self _
    · exact hplain
  · constructor
    · exact hmem
    · intro hcomma
      rw [hplain hcomma]
      exact List.mem_singleton_self _

/-- The image that is mounted is the one that is booted, with and without the
debugging stub, unless a comma in its path divides the options of a drive. -/
theorem boots_mounted_iff (arch : Arch) (baseDir outDir : String) (s : Settings) :
    ∃ sync build run debug rest,
      render arch baseDir outDir s = sync :: build :: run :: debug :: rest ∧
      sync.name = "sync.sh" ∧ run.name = "run.sh" ∧ debug.name = "debug.sh" ∧
      mountedImages sync.contents = [below outDir "one.img"] ∧
      ∀ file ∈ [run, debug],
        (bootedImages file.contents = [below outDir "one.img"] ↔
          (arch = .x86 → ',' ∉ outDir.toList)) ∧
        (below outDir "one.img" ∈ bootedImages file.contents ↔
          (arch = .x86 → ',' ∉ outDir.toList)) := by
  refine ⟨_, _, _, _, _, rfl, rfl, rfl, rfl, ?_, ?_⟩
  · show mountedImages (sync (Path.dropSlash baseDir) (Path.dropSlash outDir)).render = _
    rw [mountedImages_sync]
    simp [below, Emulator.diskImagePath, String.append_assoc]
  · have hrun := booted_iff arch outDir (s.emulator.getD (Emulator.defaultProgram arch))
      "Run command failed" [] (Or.inl rfl)
    have hdebug := booted_iff arch outDir (s.emulator.getD (Emulator.defaultProgram arch))
      "Debug Run command failed" ["-s", "-S"] (Or.inr rfl)
    rw [List.append_nil] at hrun
    intro file hfile
    simp only [List.mem_cons, List.not_mem_nil, or_false] at hfile
    rcases hfile with rfl | rfl
    · exact hrun
    · exact hdebug

/-- For a directory `a,b` the image is mounted, and the file `a` is booted. -/
theorem comma_boots_other :
    ∃ sync ∈ render .x86 "b" "a,b" {}, ∃ run ∈ render .x86 "b" "a,b" {},
      sync.name = "sync.sh" ∧ run.name = "run.sh" ∧
      mountedImages sync.contents = ["a,b/one.img"] ∧ bootedImages run.contents = ["a"] := by
  let command := "qemu-system-i386" :: Emulator.machine .x86 "a,b"
  let run : GeneratedFile :=
    { name := "run.sh", contents := (checkedChain [(command, "Run command failed")]).render }
  refine ⟨_, List.mem_cons_self, run, List.mem_of_getElem? (i := 2) rfl, rfl, rfl, ?_, ?_⟩
  · exact mountedImages_sync "b" "a,b"
  · rw [bootedImages_checkedChain]
    decide

end ScriptSet

end ImageTools
