import Mathlib.Data.List.Chain
import ImageTools.Proofs.TreePaths

/-!
# Slashes that stand alone

Whether a text holds two slashes in a row can be read off its parts and the
places where they meet. Quoting and escaping put nothing beside a slash that
was not there, each step ends its words with something else than a slash, and a
directory has lost its last slash before a name is put behind it. So the files of
a set hold a doubled slash only if one of the texts that they were made from does.
-/

set_option autoImplicit false

namespace ImageTools

namespace Path

/-! ## Texts without a doubled slash -/

def Doubled (text : String) : Prop := "//".toList <:+: text.toList

def Single (cs : List Char) : Prop := cs.IsChain fun a b => ¬(a = '/' ∧ b = '/')

theorem single_iff (text : String) : Single text.toList ↔ ¬Doubled text := by
  rw [Single, List.isChain_iff_forall_rel_of_append_cons_cons]
  constructor
  · rintro h ⟨front, back, heq⟩
    exact h (show text.toList = front ++ '/' :: '/' :: back by rw [← heq]; simp) ⟨rfl, rfl⟩
  · rintro h a b front back heq ⟨rfl, rfl⟩
    exact h ⟨front, back, by rw [heq]; simp⟩

def EndsInSlash (cs : List Char) : Prop := cs.getLast? = some '/'

def BeginsWithSlash (cs : List Char) : Prop := cs.head? = some '/'

/-- Where two texts meet, a slash may be on one side only. -/
theorem single_append (as bs : List Char) :
    Single (as ++ bs) ↔ Single as ∧ Single bs ∧ ¬(EndsInSlash as ∧ BeginsWithSlash bs) := by
  rw [Single, List.isChain_append, Single, Single, EndsInSlash, BeginsWithSlash]
  refine and_congr_right fun _ => and_congr_right fun _ => ⟨fun h ⟨ha, hb⟩ => ?_, fun h => ?_⟩
  · exact h '/' ha '/' hb ⟨rfl, rfl⟩
  · rintro a ha b hb ⟨rfl, rfl⟩
    exact h ⟨ha, hb⟩

theorem single_of_not_mem (cs : List Char) (h : '/' ∉ cs) : Single cs := by
  induction cs with
  | nil => exact .nil
  | cons c cs ih =>
    rw [List.mem_cons, not_or] at h
    exact List.isChain_cons.2 ⟨fun _ _ hc => h.1 hc.1.symm, ih h.2⟩

instance (cs : List Char) : Decidable (Single cs) :=
  inferInstanceAs (Decidable (cs.IsChain _))

instance (cs : List Char) : Decidable (EndsInSlash cs) :=
  inferInstanceAs (Decidable (cs.getLast? = _))

instance (cs : List Char) : Decidable (BeginsWithSlash cs) :=
  inferInstanceAs (Decidable (cs.head? = _))

theorem begins_append (as bs : List Char) (h : as ≠ []) :
    BeginsWithSlash (as ++ bs) ↔ BeginsWithSlash as := by
  rw [BeginsWithSlash, BeginsWithSlash, List.head?_append_of_ne_nil as h]

/-- Nothing that is written beside the text makes a doubled slash. -/
def Clear (cs : List Char) : Prop := Single cs ∧ ¬EndsInSlash cs ∧ ¬BeginsWithSlash cs

instance (cs : List Char) : Decidable (Clear cs) :=
  inferInstanceAs (Decidable (_ ∧ _))

theorem clear_of_not_mem (cs : List Char) (h : '/' ∉ cs) : Clear cs :=
  ⟨single_of_not_mem cs h, fun hends => h (List.mem_of_getLast? hends),
    fun hbegins => h (List.mem_of_head? hbegins)⟩

theorem Clear.single {glue : List Char} (h : Clear glue) : Single glue := h.1

theorem Clear.single_before {glue : List Char} (h : Clear glue) (cs : List Char) :
    Single (glue ++ cs) ↔ Single cs := by
  rw [single_append]
  exact ⟨fun hs => hs.2.1, fun hs => ⟨h.1, hs, fun hm => h.2.1 hm.1⟩⟩

theorem Clear.single_behind {glue : List Char} (h : Clear glue) (cs : List Char) :
    Single (cs ++ glue) ↔ Single cs := by
  rw [single_append]
  exact ⟨fun hs => hs.1, fun hs => ⟨hs, h.1, fun hm => h.2.2 hm.2⟩⟩

theorem Clear.single_between {glue : List Char} (h : Clear glue) (hne : glue ≠ [])
    (as bs : List Char) : Single (as ++ (glue ++ bs)) ↔ Single as ∧ Single bs := by
  rw [single_append, h.single_before, begins_append glue bs hne]
  exact and_congr_right fun _ => ⟨fun hs => hs.1, fun hs => ⟨hs, fun hm => h.2.2 hm.2⟩⟩

theorem single_slash (cs : List Char) :
    Single (cs ++ ['/']) ↔ Single cs ∧ ¬EndsInSlash cs := by
  have hslash : Single ['/'] := .singleton _
  have hbegins : BeginsWithSlash ['/'] := rfl
  simp only [single_append, hslash, hbegins, and_true, true_and]

def SparesSlashes (write : Char → List Char) : Prop :=
  ∀ c, write c = [c] ∨ c ≠ '/' ∧ write c ≠ [] ∧ '/' ∉ write c

theorem begins_flatMap {write : Char → List Char} (hw : SparesSlashes write) (cs : List Char) :
    BeginsWithSlash (cs.flatMap write) ↔ BeginsWithSlash cs := by
  cases cs with
  | nil => rfl
  | cons c cs =>
    rcases hw c with hc | ⟨hc, hne, hmem⟩
    · simp [BeginsWithSlash, hc]
    · obtain ⟨d, ds, hd⟩ := List.exists_cons_of_ne_nil hne
      rw [hd, List.mem_cons, not_or] at hmem
      simp [BeginsWithSlash, hd, hc, Ne.symm hmem.1]

theorem single_flatMap {write : Char → List Char} (hw : SparesSlashes write) (cs : List Char) :
    Single (cs.flatMap write) ↔ Single cs := by
  induction cs with
  | nil => rfl
  | cons c cs ih =>
    have hone : Single [c] := .singleton c
    rw [List.flatMap_cons, single_append, ih, begins_flatMap hw, ← List.singleton_append,
      single_append]
    rcases hw c with hc | ⟨hc, -, hmem⟩
    · rw [hc]
    · have hlast : ¬EndsInSlash (write c) := fun h => hmem (List.mem_of_getLast? h)
      have hself : ¬EndsInSlash [c] := by simpa [EndsInSlash] using hc
      simp only [single_of_not_mem _ hmem, hone, hlast, hself, false_and, not_false_eq_true]

end Path

namespace Script
open ImageTools.Path

/-! ## Words and messages -/

theorem quoteChar_spares : SparesSlashes quoteChar := by
  intro c
  unfold quoteChar
  split
  · rename_i h
    exact Or.inr (by simp [h])
  · exact Or.inl rfl

theorem escapeChar_spares : SparesSlashes escapeChar := by
  intro c
  unfold escapeChar
  split
  · rename_i h
    have hc : c ≠ '/' := by
      rintro rfl
      exact absurd h (by decide)
    exact Or.inr ⟨hc, by simp, by simp [Ne.symm hc]⟩
  · exact Or.inl rfl

theorem single_escape (text : String) : Single (escape text).toList ↔ Single text.toList := by
  rw [escape, String.toList_ofList, single_flatMap escapeChar_spares]

theorem single_singleQuoted (cs : List Char) : Single (singleQuoted cs) ↔ Single cs := by
  have hquote : Single ['\x27'] := .singleton _
  have hends : ¬EndsInSlash ['\x27'] := by simp [EndsInSlash]
  have hbegins : ¬BeginsWithSlash ['\x27'] := by simp [BeginsWithSlash]
  rw [singleQuoted, ← List.singleton_append, List.append_assoc, single_append, single_append,
    single_flatMap quoteChar_spares]
  simp only [hquote, hends, hbegins, false_and, and_false, not_false_eq_true, and_true, true_and]

theorem single_word (text : String) : Single (word text).toList ↔ Single text.toList := by
  unfold word
  split
  · rfl
  · rw [String.toList_ofList, single_singleQuoted]

theorem ends_singleQuoted (cs : List Char) : ¬EndsInSlash (singleQuoted cs) := by
  rw [EndsInSlash, singleQuoted, List.getLast?_concat]
  decide

theorem ends_word (text : String) (h : ¬EndsInSlash text.toList) :
    ¬EndsInSlash (word text).toList := by
  unfold word
  split
  · exact h
  · rw [String.toList_ofList]
    exact ends_singleQuoted text.toList

/-! ## Lines -/

/-- The texts of the step hold no doubled slash, and where a slash is written
behind a word, the word ends in none. -/
def Tidy : Step → Prop
  | .blank => True
  | .command words => ∀ w ∈ words, Single w.toList
  | .abortOnFailure message => Single message.toList
  | .unmountOnFailure mountpoint message => Single mountpoint.toList ∧ Single message.toList
  | .makeDirectory path => Single path.toList
  | .mount image mountpoint => Single image.toList ∧ Single mountpoint.toList
  | .copyTree source target =>
    (Single source.toList ∧ ¬EndsInSlash (word source).toList) ∧
      Single target.toList ∧ ¬EndsInSlash (word target).toList
  | .unmount mountpoint => Single mountpoint.toList
  | .announce message => Single message.toList

theorem single_words (words : List String) :
    Single (" ".intercalate (words.map word)).toList ↔ ∀ w ∈ words, Single w.toList := by
  have hblank : Clear " ".toList := clear_of_not_mem _ (by simp)
  induction words with
  | nil => exact ⟨fun _ => by simp, fun _ => .nil⟩
  | cons w words ih =>
    cases words with
    | nil => simp [single_word]
    | cons v words =>
      rw [List.map_cons, List.map_cons, String.intercalate_cons_cons, ← List.map_cons,
        String.append_assoc, String.toList_append, String.toList_append,
        hblank.single_between (by simp), single_word, List.forall_mem_cons]
      exact and_congr_right fun _ => ih

theorem single_abort (message : String) :
    Single (abortText message).toList ↔ Single message.toList := by
  have hfront : Clear "echo -e \"$\x7bERROR\x7d ".toList := clear_of_not_mem _ (by simp)
  have hback : Clear "\" && exit 1; fi".toList := clear_of_not_mem _ (by simp)
  rw [abortText_eq, String.toList_append, String.toList_append, hback.single_behind,
    hfront.single_before, single_escape]

theorem single_line (elevated : Bool) (step : Step) :
    Single (line elevated step).toList ↔ Tidy step := by
  have hprivilege : Clear (line.privilege elevated).toList := by
    cases elevated <;> decide
  have htest : Clear testText.toList := by decide
  have humount : Clear "umount ".toList := clear_of_not_mem _ (by simp)
  cases step with
  | blank => exact ⟨fun _ => trivial, fun _ => .nil⟩
  | command words => exact single_words words
  | abortOnFailure message =>
    rw [line_abortOnFailure, String.toList_append, htest.single_before, single_abort]
    rfl
  | unmountOnFailure mountpoint message =>
    have hthen : Clear "; ".toList := clear_of_not_mem _ (by simp)
    simp only [line_unmountOnFailure, String.toList_append, List.append_assoc]
    rw [htest.single_before, hprivilege.single_before, humount.single_before,
      hthen.single_between (by simp), single_word, single_abort]
    rfl
  | makeDirectory path =>
    have hmake : Clear "mkdir -p ".toList := clear_of_not_mem _ (by simp)
    simp only [line_makeDirectory, String.toList_append, List.append_assoc]
    rw [hprivilege.single_before, hmake.single_before, single_word]
    rfl
  | mount image mountpoint =>
    have hmount : Clear "fuse-ext2 ".toList := clear_of_not_mem _ (by simp)
    have hblank : Clear " ".toList := clear_of_not_mem _ (by simp)
    have hwritable : Clear " -o rw+".toList := clear_of_not_mem _ (by simp)
    rw [line_mount, String.toList_append, hwritable.single_behind]
    simp only [String.toList_append, List.append_assoc]
    rw [hprivilege.single_before, hmount.single_before, hblank.single_between (by simp),
      single_word, single_word]
    rfl
  | copyTree source target =>
    have htext : (line elevated (.copyTree source target)).toList =
        (line.privilege elevated).toList ++ ("cp -r ".toList ++ ((word source).toList ++ ['/'] ++
          ("* ".toList ++ ((word target).toList ++ ['/'])))) := by
      simp [line_copyTree]
    have hcopy : Clear "cp -r ".toList := clear_of_not_mem _ (by simp)
    have hstar : Clear "* ".toList := clear_of_not_mem _ (by simp)
    rw [htext, hprivilege.single_before, hcopy.single_before, hstar.single_between (by simp),
      single_slash, single_slash, single_word, single_word]
    rfl
  | unmount mountpoint =>
    simp only [line_unmount, String.toList_append, List.append_assoc]
    rw [hprivilege.single_before, humount.single_before, single_word]
    rfl
  | announce message =>
    have hfront : Clear "echo -e \"$\x7bSUCCESS\x7d ".toList := clear_of_not_mem _ (by simp)
    have hback : Clear "\"".toList := clear_of_not_mem _ (by simp)
    rw [line_announce, String.toList_append, String.toList_append, hback.single_behind,
      hfront.single_before, single_escape]
    rfl

/-- A script holds a doubled slash only if one of its steps brings it. -/
theorem single_render (s : Script) : Single s.render.toList ↔ ∀ step ∈ s.steps, Tidy step := by
  have hheader : Clear header.toList := by decide +kernel
  have hfeed : Clear ['\n'] := by decide
  rw [render, String.toList_append, hheader.single_before, body, String.toList_join,
    List.flatMap_map]
  induction s.steps with
  | nil => exact ⟨fun _ => by simp, fun _ => .nil⟩
  | cons step steps ih =>
    have hline : (line s.elevated step ++ "\n").toList =
        (line s.elevated step).toList ++ ['\n'] := by simp
    rw [List.flatMap_cons, hline, List.append_assoc, hfeed.single_between (by simp), single_line,
      List.forall_mem_cons]
    exact and_congr_right fun _ => ih

end Script

namespace ScriptSet
open ImageTools.Path Script

/-! ## Files -/

theorem single_dropSlash (dir : String) :
    Single dir.toList ↔
      Single (dropSlash dir).toList ∧ ¬EndsInSlash (dropSlash dir).toList := by
  by_cases h : dir.toList.getLast? = some '/'
  · obtain ⟨front, hpath, hdrop⟩ := split_slash dir h
    have hslash : "/".toList = ['/'] := rfl
    rw [hdrop, hpath, String.toList_append, hslash, single_slash]
  · have hends : ¬EndsInSlash dir.toList := h
    rw [dropSlash, if_neg h]
    exact (and_iff_left hends).symm

/-- A name behind a directory makes no doubled slash that the directory does not hold. -/
theorem single_below (dir name : String) (hname : Clear name.toList) :
    Single (below dir name).toList ↔ Single dir.toList := by
  have hslash : "/".toList = ['/'] := rfl
  rw [below, String.toList_append, String.toList_append, hslash, hname.single_behind, single_slash]
  exact (single_dropSlash dir).symm

theorem ends_below (dir name : String) (hname : Clear name.toList) (hne : name.toList ≠ []) :
    ¬EndsInSlash (below dir name).toList := by
  rw [EndsInSlash, below, String.toList_append, List.getLast?_append_of_ne_nil _ hne]
  exact hname.2.1

theorem below_slash (dir name : String) (h : ¬EndsInSlash dir.toList) :
    below (dir ++ "/") name = below dir name := by
  have hlast : ¬dir.toList.getLast? = some '/' := h
  have hdrop : dropSlash (dir ++ "/") = dropSlash dir := by simp [dropSlash, hlast]
  rw [below, below, hdrop]

theorem single_sync (baseDir outDir : String) :
    Single (syncAt (below baseDir) (below outDir)).render.toList ↔
      Single baseDir.toList ∧ Single outDir.toList := by
  have hmount : Clear "Can't mount one.img to ".toList := clear_of_not_mem _ (by simp)
  have hcopy : Clear "Can't copy ".toList := clear_of_not_mem _ (by simp)
  have hto : Clear " to ".toList := clear_of_not_mem _ (by simp)
  have humount : Clear "Can't umount ".toList := clear_of_not_mem _ (by simp)
  have htree : ∀ dir, ¬EndsInSlash (word (below dir "base")).toList := fun dir =>
    ends_word _ (ends_below dir "base" (by decide) (by simp))
  have hpoint : ¬EndsInSlash (word (below baseDir "mountpoint")).toList :=
    ends_word _ (ends_below baseDir "mountpoint" (by decide) (by simp))
  rw [single_render]
  simp (disch := decide) only [syncAt, List.forall_mem_cons, Tidy, String.toList_append,
    List.append_assoc, hmount.single_before, hcopy.single_before, hto.single_between (by simp),
    humount.single_before, single_below, Clear.single, htree, hpoint, List.not_mem_nil,
    not_false_eq_true, false_implies, implies_true, and_true, true_and, and_self]
  exact ⟨fun h => ⟨h.1, h.2.2.2.1.1⟩, fun h => by simp only [h, and_self]⟩

theorem tidy_checkedChain (commands : List (List String × String)) :
    (∀ step ∈ (checkedChain commands).steps, Tidy step) ↔
      ∀ c ∈ commands, (∀ w ∈ c.1, Single w.toList) ∧ Single c.2.toList := by
  rw [(checkedChain_steps commands).2]
  induction commands with
  | nil => simp
  | cons c commands ih =>
    rw [List.flatMap_cons, List.forall_mem_append, ih, List.forall_mem_cons]
    simp [Tidy]

theorem single_checkedChain (commands : List (List String × String)) :
    Single (checkedChain commands).render.toList ↔
      ∀ c ∈ commands, (∀ w ∈ c.1, Single w.toList) ∧ Single c.2.toList :=
  (single_render _).trans (tidy_checkedChain commands)

theorem single_build (arch : Arch) : Single (build arch).render.toList := by
  have hannounced : Single ("Build for arch: " ++ arch.tag).toList := by
    cases arch <;> decide
  have hchecked : ∀ step ∈
      (checkedChain [(["ninja"], "Can't build for arch: " ++ arch.tag)]).steps, Tidy step :=
    (tidy_checkedChain _).2 (by cases arch <;> decide)
  rw [single_render, build, add, List.forall_mem_append]
  exact ⟨hchecked, by simpa [Tidy] using hannounced⟩

theorem single_emulator (arch : Arch) (outDir : String) (s : Settings) :
    (∀ w ∈ (emulatorAt (below outDir) arch s).words, Single w.toList) ↔
      (∀ program, s.emulator = some program → Single program.toList) ∧ Single outDir.toList := by
  have hfile : Clear "id=disk,file=".toList := clear_of_not_mem _ (by simp)
  have hif : Clear ",if=none".toList := clear_of_not_mem _ (by simp)
  have hmachine :
      (∀ w ∈ machineAt (below outDir) arch, Single w.toList) ↔ Single outDir.toList := by
    cases arch <;>
      simp (disch := decide) only [machineAt, List.forall_mem_cons, String.toList_append,
        hif.single_behind, hfile.single_before, single_below, Clear.single, List.not_mem_nil,
        false_implies, implies_true, and_true, true_and, and_self]
  have hdefault : Single (Emulator.defaultProgram arch).toList := by cases arch <;> decide
  rw [emulatorAt, Emulator.words, List.forall_mem_cons, hmachine]
  cases s.emulator with
  | none => simp [hdefault]
  | some program => simp

theorem single_debuggerFile (outDir : String) :
    Single ("file " ++ below outDir "base/boot/kernel.bin" ++ "\ntarget remote :" ++
      toString Emulator.debugPort ++ "\n").toList ↔ Single outDir.toList := by
  have hfile : Clear "file ".toList := clear_of_not_mem _ (by simp)
  have htarget : Clear ("\ntarget remote :".toList ++ ((toString Emulator.debugPort).toList ++
      "\n".toList)) := by decide
  simp only [String.toList_append, List.append_assoc]
  rw [hfile.single_before, htarget.single_behind, single_below _ _ (by decide)]

theorem single_files (arch : Arch) (baseDir outDir : String) (s : Settings) :
    (∀ file ∈ render arch baseDir outDir s, Single file.contents.toList) ↔
      Single baseDir.toList ∧ Single outDir.toList ∧
        ∀ program, s.emulator = some program → Single program.toList := by
  have hrun : Single "Run command failed".toList := single_of_not_mem _ (by simp)
  have hdebug : Single "Debug Run command failed".toList := single_of_not_mem _ (by simp)
  have hflags : ∀ w ∈ ["-s", "-S"], Single w.toList := by decide
  have hall : Single (chain "./run.sh" "All command failed").render.toList :=
    (single_checkedChain _).2 (by decide)
  have hdll : Single (chain "./debug.sh" "Debug All command failed").render.toList :=
    (single_checkedChain _).2 (by decide)
  have hstub : (∀ w ∈ (emulatorAt (below outDir) arch s).withDebugStub.words, Single w.toList) ↔
      ∀ w ∈ (emulatorAt (below outDir) arch s).words, Single w.toList := by
    rw [Emulator.words, Emulator.withDebugStub, ← List.cons_append, List.forall_mem_append]
    exact and_iff_left hflags
  rw [render_below]
  simp only [renderAt, List.forall_mem_cons, single_sync, single_build, single_checkedChain, hstub,
    single_emulator, hrun, hdebug, hall, hdll, single_debuggerFile, List.not_mem_nil,
    false_implies, implies_true, and_true, true_and]
  constructor
  · rintro ⟨⟨hbase, hout⟩, ⟨hprogram, -⟩, -⟩
    exact ⟨hbase, hout, hprogram⟩
  · rintro ⟨hbase, hout, hprogram⟩
    exact ⟨⟨hbase, hout⟩, ⟨hprogram, hout⟩, ⟨hprogram, hout⟩, hout⟩

/-- The files hold a doubled slash exactly if a directory or the configured
program does, however their words are quoted; and whether one slash ends a
directory cannot be told from them. -/
theorem doubled_slash_iff (arch : Arch) (baseDir outDir : String) (s : Settings) :
    ((∀ file ∈ render arch baseDir outDir s, ¬Doubled file.contents) ↔
      ¬Doubled baseDir ∧ ¬Doubled outDir ∧
        ∀ program, s.emulator = some program → ¬Doubled program) ∧
    (baseDir.toList.getLast? ≠ some '/' → outDir.toList.getLast? ≠ some '/' →
      ∀ base ∈ [baseDir, baseDir ++ "/"], ∀ out ∈ [outDir, outDir ++ "/"],
        render arch base out s = render arch baseDir outDir s) := by
  constructor
  · simp only [← single_iff]
    exact single_files arch baseDir outDir s
  · intro hb ho base hbase out hout
    have hbelow : ∀ {dir given : String}, dir.toList.getLast? ≠ some '/' →
        given ∈ [dir, dir ++ "/"] → below given = below dir := by
      intro dir given hdir hgiven
      simp only [List.mem_cons, List.not_mem_nil, or_false] at hgiven
      rcases hgiven with rfl | rfl
      · rfl
      · exact funext fun name => below_slash dir name hdir
    rw [render_below, render_below, hbelow hb hbase, hbelow ho hout]

/-- Directories with quotes in them, one of them the root, and a slash behind the other. -/
theorem doubled_slash_quoted :
    (∀ file ∈ render .x86 "/" "it\x27s out/" {}, ¬Doubled file.contents) ∧
    render .aarch32 "a b/" "it\x27s out/" { emulator := some "/opt/q\x27emu" } =
      render .aarch32 "a b" "it\x27s out" { emulator := some "/opt/q\x27emu" } := by
  have hsingle : ∀ text : String, Single text.toList → ¬Doubled text := fun text =>
    (single_iff text).1
  refine ⟨(doubled_slash_iff .x86 "/" "it\x27s out/" {}).1.2
      ⟨hsingle _ (by decide), hsingle _ (by decide), by simp⟩, ?_⟩
  exact (doubled_slash_iff .aarch32 "a b" "it\x27s out" _).2 (by decide) (by decide)
    _ (by simp) _ (by simp)

end ScriptSet

end ImageTools
