import ImageTools.Proofs.TreePaths

/-!
# The kernel that is debugged and the kernel that is booted

A debugger reads its file line by line, and the arguments of a line are divided
at blanks, unless quotes or a backslash keep them together. The path of the
kernel stands in the file as it is. So the debugger is led to the kernel only if
its path holds none of these characters, while the emulator always gets it whole.
-/

set_option autoImplicit false

namespace ImageTools

namespace Debugger

/-! ## Arguments -/

def isBlank (c : Char) : Bool :=
  c == ' ' || c == '\t' || c == '\n' || c == '\x0b' || c == '\x0c' || c == '\r'

def isQuote (c : Char) : Bool := c == '\x27' || c == '\x22'

def isSpecial (c : Char) : Bool := isBlank c || isQuote c || c == '\\'

structure Reader where
  complete : List (List Char) := []
  word : Option (List Char) := none
  /-- The quote that is open. -/
  quote : Option Char := none
  /-- The character before was a backslash. -/
  escaped : Bool := false

namespace Reader

def arguments (r : Reader) : List (List Char) := r.complete ++ r.word.toList

def add (r : Reader) (c : Char) : Reader :=
  { r with word := some (r.word.getD [] ++ [c]), escaped := false }

def started (r : Reader) : Reader := { r with word := some (r.word.getD []) }

def ended (r : Reader) : Reader := { r with complete := r.arguments, word := none }

def step (r : Reader) (c : Char) : Reader :=
  if r.escaped then r.add c
  else if c = '\\' then { r.started with escaped := true }
  else
    match r.quote with
    | some q => if c = q then { r with quote := none } else r.add c
    | none =>
      if isBlank c then r.ended
      else if isQuote c then { r.started with quote := some c }
      else r.add c

def run (r : Reader) (cs : List Char) : Reader := cs.foldl step r

def size (r : Reader) : Nat := r.arguments.flatten.length

theorem size_add (r : Reader) (c : Char) : (r.add c).size = r.size + 1 := by
  cases hword : r.word <;> simp [size, arguments, add, hword]
  omega

theorem size_started (r : Reader) : r.started.size = r.size := by
  cases hword : r.word <;> simp [size, arguments, started, hword]

theorem size_ended (r : Reader) : r.ended.size = r.size := by
  simp [size, arguments, ended]

/-- Where nothing is quoted, a character that stands for something else is
not part of an argument. -/
theorem size_step_special (r : Reader) (c : Char) (hescaped : r.escaped = false)
    (hquote : r.quote = none) (hc : isSpecial c = true) : (r.step c).size = r.size := by
  simp only [step, hescaped, hquote, Bool.false_eq_true, if_false]
  split
  · exact size_started r
  split
  · exact size_ended r
  split
  · exact size_started r
  · simp_all [isSpecial]

theorem size_step_le (r : Reader) (c : Char) : (r.step c).size ≤ r.size + 1 := by
  have hadd : (r.add c).size ≤ r.size + 1 := Nat.le_of_eq (size_add r c)
  have hsame : ∀ r' : Reader, r'.size = r.size → r'.size ≤ r.size + 1 := fun r' h => by omega
  unfold step
  split
  · exact hadd
  split
  · exact hsame _ (size_started r)
  split
  · split
    · exact hsame _ rfl
    · exact hadd
  · split
    · exact hsame _ (size_ended r)
    split
    · exact hsame _ (size_started r)
    · exact hadd

theorem size_run_le (r : Reader) (cs : List Char) : (r.run cs).size ≤ r.size + cs.length := by
  induction cs generalizing r with
  | nil => exact Nat.le_refl _
  | cons c cs ih =>
    have hstep := size_step_le r c
    have hrest := ih (r.step c)
    rw [List.length_cons]
    exact Nat.le_trans hrest (by omega)

theorem step_plain (r : Reader) (c : Char) (hescaped : r.escaped = false)
    (hquote : r.quote = none) (hc : isSpecial c = false) : r.step c = r.add c := by
  simp only [isSpecial, Bool.or_eq_false_iff, beq_eq_false_iff_ne] at hc
  simp [step, hescaped, hquote, hc]

/-- Special characters are missing in what has been read. -/
theorem size_run_lt (r : Reader) (cs : List Char) (hescaped : r.escaped = false)
    (hquote : r.quote = none) (hcs : ∃ c ∈ cs, isSpecial c = true) :
    (r.run cs).size < r.size + cs.length := by
  induction cs generalizing r with
  | nil => simp at hcs
  | cons c cs ih =>
    rw [List.length_cons]
    show ((r.step c).run cs).size < _
    cases hc : isSpecial c with
    | true =>
      have hstep := size_step_special r c hescaped hquote hc
      have hrest := size_run_le (r.step c) cs
      omega
    | false =>
      obtain ⟨d, hd, hspecial⟩ := hcs
      have hlater : ∃ c ∈ cs, isSpecial c = true := by
        refine ⟨d, ?_, hspecial⟩
        rcases List.mem_cons.1 hd with rfl | hd
        · rw [hc] at hspecial
          contradiction
        · exact hd
      rw [step_plain r c hescaped hquote hc]
      have hrest := ih (r.add c) rfl hquote hlater
      rw [size_add] at hrest
      omega

theorem run_plain (r : Reader) (word cs : List Char) (hescaped : r.escaped = false)
    (hquote : r.quote = none) (hword : r.word = some word)
    (hcs : ∀ c ∈ cs, isSpecial c = false) : r.run cs = { r with word := some (word ++ cs) } := by
  induction cs generalizing r word with
  | nil => simp [run, ← hword]
  | cons c cs ih =>
    obtain ⟨hc, hcs⟩ := List.forall_mem_cons.1 hcs
    show (r.step c).run cs = _
    rw [step_plain r c hescaped hquote hc, ih (r.add c) (word ++ [c]) rfl hquote
      (by simp [add, hword]) hcs]
    simp [add, hescaped]

end Reader

def arguments (text : List Char) : List (List Char) := (Reader.run {} text).arguments

theorem length_arguments_le (text : List Char) :
    (arguments text).flatten.length ≤ text.length := by
  have h := Reader.size_run_le {} text
  rwa [show Reader.size {} = 0 from rfl, Nat.zero_add] at h

theorem arguments_blank (c : Char) (text : List Char) (h : isBlank c = true) (hc : c ≠ '\\') :
    arguments (c :: text) = arguments text := by
  have hstep : Reader.step {} c = {} := by
    simp [Reader.step, hc, h, Reader.ended, Reader.arguments]
  show (Reader.run (Reader.step {} c) text).arguments = _
  rw [hstep, arguments]

/-- A text is one argument as it stands if and only if each of its characters
stands for itself. -/
theorem arguments_iff (text : List Char) (hne : text ≠ []) :
    arguments text = [text] ↔ ∀ c ∈ text, isSpecial c = false := by
  constructor
  · intro h c hc
    have hsize : (Reader.run {} text).size = text.length := by
      show (arguments text).flatten.length = _
      rw [h]
      simp
    cases hspecial : isSpecial c with
    | false => rfl
    | true =>
      have hlost := Reader.size_run_lt {} text rfl rfl ⟨c, hc, hspecial⟩
      rw [hsize, show Reader.size {} = 0 from rfl, Nat.zero_add] at hlost
      exact absurd hlost (Nat.lt_irrefl _)
  · intro h
    cases text with
    | nil => contradiction
    | cons c text =>
      obtain ⟨hc, htext⟩ := List.forall_mem_cons.1 h
      show (Reader.run (Reader.step {} c) text).arguments = _
      rw [Reader.step_plain {} c rfl rfl hc,
        Reader.run_plain (Reader.add {} c) [c] text rfl rfl rfl htext]
      rfl

example : arguments "a\\ b 'c d'\"e\" f".toList =
    ["a b".toList, "c de".toList, "f".toList] := by decide +kernel

/-! ## Commands -/

inductive Command
  | file (args : List String)
  | other (text : String)
  deriving DecidableEq, Repr

def command? (line : List Char) : Option Command :=
  let text := line.dropWhile isBlank
  let name := text.takeWhile fun c => !isBlank c
  if text = [] ∨ text.head? = some '#' then none
  else if name = "file".toList then
    some (.file ((arguments (text.drop name.length)).map String.ofList))
  else some (.other (String.ofList text))

def commandsOf (cs : List Char) : List Command := (cs.splitOnP (· == '\n')).filterMap command?

def commands (contents : String) : List Command := commandsOf contents.toList

theorem commandsOf_line (line rest : List Char) (h : '\n' ∉ line) :
    commandsOf (line ++ '\n' :: rest) = (command? line).toList ++ commandsOf rest := by
  have hline : ∀ c ∈ line, (c == '\n') = false := by
    intro c hc
    rw [beq_eq_false_iff_ne]
    rintro rfl
    exact h hc
  rw [commandsOf, List.splitOnP_append_cons_of_forall_mem hline _ rfl, List.filterMap_cons]
  cases command? line <;> rfl

theorem command_file (path : List Char) :
    command? ("file ".toList ++ path) = some (.file ((arguments path).map String.ofList)) := by
  show some (Command.file ((arguments (' ' :: path)).map String.ofList)) = _
  rw [arguments_blank ' ' path rfl (by decide)]

theorem texts_inj (args : List (List Char)) (path : String)
    (h : args.map String.ofList = [path]) : args = [path.toList] := by
  have hchars := congrArg (List.map String.toList) h
  simpa [List.map_map, Function.comp_def] using hchars

/-- A file that is to load `path` and to connect to the emulator does just that
if and only if each character of the path stands for itself. -/
theorem commands_iff (path : String) (hne : path ≠ "") :
    commands ("file " ++ path ++ "\ntarget remote :1234\n") =
        [.file [path], .other "target remote :1234"] ↔
      ∀ c ∈ path.toList, isSpecial c = false := by
  have hchars : ∀ first more, path.toList = first ++ more →
      ("file " ++ path ++ "\ntarget remote :1234\n").toList =
        ("file ".toList ++ first) ++ (more ++ '\n' :: "target remote :1234\n".toList) := by
    intro first more h
    simp [h]
  have hplace : ∀ line, '\n' ∉ line → '\n' ∉ "file ".toList ++ line := by
    intro line h
    simp [h]
  by_cases hline : '\n' ∈ path.toList
  · obtain ⟨first, more, hsplit, hfirst⟩ := List.eq_append_cons_of_mem hline
    constructor
    · intro h
      rw [commands, hchars first _ hsplit, List.cons_append,
        commandsOf_line _ _ (hplace first hfirst), command_file] at h
      have hargs := texts_inj _ _ (Command.file.inj (List.cons.inj h).1)
      have hsize := length_arguments_le first
      rw [hargs, hsplit, List.flatten_singleton, List.length_append, List.length_cons] at hsize
      omega
    · intro h
      exact absurd (h '\n' hline) (by decide)
  · have hrest : commandsOf "target remote :1234\n".toList = [.other "target remote :1234"] := by
      decide +kernel
    have hpath : path.toList ≠ [] := by
      simpa using hne
    rw [commands, hchars path.toList [] (by simp), List.nil_append,
      commandsOf_line _ _ (hplace _ hline), command_file, hrest, ← arguments_iff _ hpath]
    constructor
    · intro h
      exact texts_inj _ _ (Command.file.inj (List.cons.inj h).1)
    · intro h
      simp [h]

example : commands "file o\nshell reboot\n/base/boot/kernel.bin\ntarget remote :1234\n" =
    [.file ["o"], .other "shell reboot", .other "/base/boot/kernel.bin",
      .other "target remote :1234"] := by decide +kernel

end Debugger

namespace Emulator

def valuesOf (option : String) : List String → List String
  | [] => []
  | [_] => []
  | name :: value :: rest =>
    if name = "-s" ∨ name = "-S" then valuesOf option (value :: rest)
    else if name = option then value :: valuesOf option rest
    else valuesOf option rest

theorem valuesOf_machine (arch : Arch) (out : String) (stub : List String)
    (h : stub = [] ∨ stub = ["-s", "-S"]) :
    valuesOf "-kernel" (machine arch out ++ stub) =
      match arch with
      | .x86 => []
      | .aarch32 => [kernelPath out] := by
  rcases h with rfl | rfl <;> cases arch <;> simp [machine, valuesOf]

end Emulator

namespace ScriptSet
open Script Shell

def bootedKernels (contents : String) : List String :=
  (literalCommands contents).flatMap fun words => Emulator.valuesOf "-kernel" words.tail

theorem bootedKernels_checkedChain (program message : String) (args : List String) :
    bootedKernels (checkedChain [(program :: args, message)]).render =
      Emulator.valuesOf "-kernel" args := by
  rw [bootedKernels, literalCommands_checkedChain _ (by simp)]
  simp [headerCommands, exitCommands, Emulator.valuesOf]

theorem below_kernel (outDir : String) :
    below outDir "base/boot/kernel.bin" = Emulator.kernelPath (Path.dropSlash outDir) := by
  simp [below, Emulator.kernelPath, String.append_assoc]

theorem special_below (dir name : String) (hname : ∀ c ∈ name.toList, Debugger.isSpecial c = false) :
    (∀ c ∈ (below dir name).toList, Debugger.isSpecial c = false) ↔
      ∀ c ∈ dir.toList, Debugger.isSpecial c = false := by
  have hslash : Debugger.isSpecial '/' = false := rfl
  have hdrop : (∀ c ∈ (Path.dropSlash dir).toList, Debugger.isSpecial c = false) ↔
      ∀ c ∈ dir.toList, Debugger.isSpecial c = false := by
    apply forall_congr'
    intro c
    by_cases hc : c = '/'
    · simp [hc, hslash]
    · rw [Path.mem_dropSlash dir c hc]
  rw [← hdrop]
  constructor
  · intro h c hc
    exact h c (by simp [below, hc])
  · intro h c hc
    simp only [below, String.toList_append, List.mem_append] at hc
    rcases hc with (hc | hc) | hc
    · exact h c hc
    · have hc : c = '/' := by simpa using hc
      rw [hc, hslash]
    · exact hname c hc

/-- The debugger is told to load the kernel that the emulator boots and to connect
to it, and nothing else, if and only if the directory holds no blank, no line
end, no quote and no backslash. The emulator is given the kernel in any case. -/
theorem debugs_booted_iff (arch : Arch) (baseDir outDir : String) (s : Settings) :
    let kernel := below outDir "base/boot/kernel.bin"
    let given := match arch with
      | .x86 => []
      | .aarch32 => [kernel]
    ∃ sync build run debug all dll init,
      render arch baseDir outDir s = [sync, build, run, debug, all, dll, init] ∧
      run.name = "run.sh" ∧ debug.name = "debug.sh" ∧ init.name = ".gdbinit" ∧
      bootedKernels run.contents = given ∧ bootedKernels debug.contents = given ∧
      (Debugger.commands init.contents = [.file [kernel], .other "target remote :1234"] ↔
        ∀ c ∈ outDir.toList, Debugger.isSpecial c = false) := by
  intro kernel given
  have hgiven : ∀ program message stub, stub = [] ∨ stub = ["-s", "-S"] →
      bootedKernels (checkedChain [(program ::
        (Emulator.machine arch (Path.dropSlash outDir) ++ stub), message)]).render = given := by
    intro program message stub hstub
    rw [bootedKernels_checkedChain, Emulator.valuesOf_machine _ _ _ hstub, ← below_kernel]
  refine ⟨_, _, _, _, _, _, _, rfl, rfl, rfl, rfl, ?_, ?_, ?_⟩
  · have hrun := hgiven (s.emulator.getD (Emulator.defaultProgram arch)) "Run command failed" []
      (Or.inl rfl)
    rw [List.append_nil] at hrun
    exact hrun
  · exact hgiven _ _ _ (Or.inr rfl)
  · rw [← special_below outDir "base/boot/kernel.bin"
      (by simp [Debugger.isSpecial, Debugger.isBlank, Debugger.isQuote])]
    have hne : kernel ≠ "" := by
      simp [kernel, below]
    have hfile : debuggerFile (Path.dropSlash outDir) =
        "file " ++ kernel ++ "\ntarget remote :1234\n" := by
      have hport : toString Emulator.debugPort = "1234" := rfl
      simp only [debuggerFile, kernel, below_kernel, hport, String.append_assoc]
      rfl
    show Debugger.commands (debuggerFile (Path.dropSlash outDir)) = _ ↔ _
    rw [hfile]
    exact Debugger.commands_iff kernel hne

/-- For a directory `my out` the emulator boots its kernel, and the debugger loads
a file `my`. -/
theorem blank_debugs_other :
    ∃ run ∈ render .aarch32 "b" "my out" {}, ∃ init ∈ render .aarch32 "b" "my out" {},
      run.name = "run.sh" ∧ init.name = ".gdbinit" ∧
      bootedKernels run.contents = ["my out/base/boot/kernel.bin"] ∧
      Debugger.commands init.contents =
        [.file ["my", "out/base/boot/kernel.bin"], .other "target remote :1234"] := by
  let command := "qemu-system-arm" :: Emulator.machine .aarch32 "my out"
  let run : GeneratedFile :=
    { name := "run.sh", contents := (checkedChain [(command, "Run command failed")]).render }
  let init : GeneratedFile := { name := ".gdbinit", contents := debuggerFile "my out" }
  refine ⟨run, List.mem_of_getElem? (i := 2) rfl, init, List.mem_of_getElem? (i := 6) rfl, rfl,
    rfl, ?_, ?_⟩
  · rw [bootedKernels_checkedChain]
    decide +kernel
  · decide +kernel

end ScriptSet

end ImageTools
