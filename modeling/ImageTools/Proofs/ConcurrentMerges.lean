import ImageTools.Proofs.ArchiveMerge
import ImageTools.Proofs.SharedDirectory

/-!
# Merges that share a work directory

Any number of merges keep their directive files in one directory. Each makes
its file, lets the archiver read it, waits for the archiver and drops the file,
and these steps of different merges come in any order. In between, archivers do
whatever they like, but leave directive files alone.

The invariant says who holds which name: a merge that is under way holds a name
that the directory did not have, with its own directive, and every other
directive name is as it was at the start.
-/

set_option autoImplicit false

namespace ImageTools.Merges
open FileSystem

structure MergeJob where
  arch : Arch
  settings : Settings
  workDir : String
  target : String
  sources : List String

namespace MergeJob

def directory (job : MergeJob) (fs : FileSystem) : String :=
  if Path.isAbsolute job.workDir then job.workDir else Path.join fs.workDir job.workDir

def archiver (job : MergeJob) : Except TargetError Archiver :=
  Archiver.ofArch job.arch job.settings

def inputs (job : MergeJob) (archiver : Archiver) : List String :=
  job.sources ++ archiver.runtimeLibs

def text? (job : MergeJob) : Option String :=
  (Merger.extraLibs job.arch job.settings).map fun libs =>
    Merger.directiveText job.target (job.sources ++ libs)

theorem text?_archiver (job : MergeJob) (archiver : Archiver) (h : job.archiver = .ok archiver) :
    job.text? =
      some (Directive.render (Directive.merge job.target (job.inputs archiver))) := by
  unfold MergeJob.archiver at h
  rw [Merger.ofArch_extraLibs] at h
  unfold text?
  cases he : Merger.extraLibs job.arch job.settings with
  | none => simp [he] at h
  | some libs =>
    simp only [he, Except.ok.injEq] at h
    rw [Merger.render_merge, inputs, ← h]
    rfl

end MergeJob

/-! ## Steps -/

inductive Stage
  | waiting
  /-- The directive file is there, and perhaps the archiver has read it. -/
  | live (path : String) (seen : Option (Option String))
  | finished (path : String) (result : Except MergeError Merged)
  | ended (result : Except MergeError Merged)

def Stage.file? : Stage → Option String
  | .live path _ => some path
  | .finished path _ => some path
  | _ => none

structure Scene (ι : Type) where
  files : FileSystem
  stages : ι → Stage

def DirectiveNamed (name : String) : Prop := ∃ drawn, name = Directive.fileName drawn

section

variable {ι : Type}

/-- What an archiver leaves alone: directive files, and the way to the shared
directory. -/
structure Spares (jobs : ι → MergeJob) (dir : Nat) (fs fs' : FileSystem) : Prop where
  caller : SameCaller fs fs'
  directory : fs'.isDirectory dir = true
  shared : ∀ i, fs'.locate ((jobs i).directory fs) = .ok dir
  names : ∀ name, DirectiveNamed name → fs'.entry? dir name = fs.entry? dir name
  nodes : ∀ name i n, DirectiveNamed name → fs.entry? dir name = some i →
    fs.node? i = some n → fs.isDirectory i = false → fs'.node? i = some n

section

variable [DecidableEq ι]

def Scene.put (s : Scene ι) (i : ι) (files : FileSystem) (stage : Stage) : Scene ι where
  files := files
  stages := fun k => if k = i then stage else s.stages k

inductive Step (jobs : ι → MergeJob) (dir : Nat) : Scene ι → Scene ι → Prop
  | refuse (s : Scene ι) (i : ι) (e : TargetError) :
      s.stages i = .waiting → (jobs i).archiver = .error e →
      Step jobs dir s (s.put i s.files (.ended (.error (.target e))))
  | fail (s : Scene ι) (i : ι) (archiver : Archiver) (draw : Nat → String) (e : SystemError) :
      s.stages i = .waiting → (jobs i).archiver = .ok archiver →
      Directive.createFile s.files (jobs i).workDir
        (Directive.merge (jobs i).target ((jobs i).inputs archiver)) draw = .error e →
      Step jobs dir s (s.put i s.files (.ended (.error (.system e))))
  | create (s : Scene ι) (i : ι) (archiver : Archiver) (draw : Nat → String) (path : String)
      (files : FileSystem) :
      s.stages i = .waiting → (jobs i).archiver = .ok archiver →
      (∀ n, '/' ∉ (draw n).toList) →
      Directive.createFile s.files (jobs i).workDir
        (Directive.merge (jobs i).target ((jobs i).inputs archiver)) draw = .ok (path, files) →
      Step jobs dir s (s.put i files (.live path none))
  | read (s : Scene ι) (i : ι) (path : String) (seen : Option (Option String)) :
      s.stages i = .live path seen →
      Step jobs dir s (s.put i s.files
        (.live path (some (Host.inputText s.files (Merger.archiverCall (jobs i).arch path)))))
  | work (s : Scene ι) (files : FileSystem) :
      Spares jobs dir s.files files → Step jobs dir s { s with files := files }
  | finish (s : Scene ι) (i : ι) (archiver : Archiver) (path : String)
      (seen : Option (Option String)) (outcome : Except MergeError Outcome) :
      s.stages i = .live path seen → (jobs i).archiver = .ok archiver →
      Step jobs dir s (s.put i s.files (.finished path
        (Merger.reported archiver.program ((jobs i).inputs archiver).length outcome)))
  | drop (s : Scene ι) (i : ι) (path : String) (result : Except MergeError Merged) :
      s.stages i = .finished path result →
      Step jobs dir s (s.put i (Directive.dropFile s.files path) (.ended result))

inductive Steps (jobs : ι → MergeJob) (dir : Nat) : Scene ι → Scene ι → Prop
  | refl (s : Scene ι) : Steps jobs dir s s
  | tail (s s' s'' : Scene ι) : Steps jobs dir s s' → Step jobs dir s' s'' → Steps jobs dir s s''

/-! ## A merge on its own -/

theorem Scene.put_put (s : Scene ι) (i : ι) (files files' : FileSystem) (stage stage' : Stage) :
    (s.put i files stage).put i files' stage' = s.put i files' stage' := by
  simp only [Scene.put, Scene.mk.injEq, true_and]
  funext k
  split <;> rfl

theorem Scene.put_stage (s : Scene ι) (i : ι) (files : FileSystem) (stage : Stage) :
    (s.put i files stage).stages i = stage := by
  simp [Scene.put]

theorem Steps.tail_put {jobs : ι → MergeJob} {dir : Nat} {s : Scene ι} {i : ι}
    {files files' : FileSystem} {stage stage' : Stage}
    (h : Steps jobs dir s (s.put i files stage))
    (hstep : Step jobs dir (s.put i files stage) ((s.put i files stage).put i files' stage')) :
    Steps jobs dir s (s.put i files' stage') := by
  rw [Scene.put_put] at hstep
  exact h.tail _ _ _ hstep

/-- How a merge goes that has made its directive file. -/
theorem archive_made (m : Merger) (arch : Arch) (target path : String) (sources : List String)
    (h : Host) (archiver : Archiver) (created : FileSystem)
    (ha : Archiver.ofArch arch m.settings = .ok archiver)
    (hc : Directive.createFile h.files m.workDir
      (Directive.merge target (sources ++ archiver.runtimeLibs)) m.draw = .ok (path, created)) :
    let call := Merger.archiverCall arch path
    m.archive arch target sources h =
      (Merger.reported archiver.program (sources ++ archiver.runtimeLibs).length
        (m.runner call created).1,
      { files := Directive.dropFile (m.runner call created).2 path
        started := h.started ++ [⟨call, Host.inputText created call⟩] }) := by
  have hprogram : Archiver.defaultProgram arch = archiver.program := by
    rw [Merger.ofArch_extraLibs] at ha
    split at ha
    · simp at ha
    · simp only [Except.ok.injEq] at ha
      exact ha ▸ rfl
  simp only [Merger.archive, ha, hc, Merger.runArchiver, Host.start, ← Merger.check_reported,
    Merger.archiverCall, hprogram]

/-- A merge that nothing interrupts is one of these runs, whatever has happened before. -/
theorem archive_steps (m : Merger) (jobs : ι → MergeJob) (dir : Nat) (s : Scene ι) (i : ι)
    (started : List Start) (hwait : s.stages i = .waiting) (hset : (jobs i).settings = m.settings)
    (hdir : (jobs i).workDir = m.workDir) (hdraw : ∀ n, '/' ∉ (m.draw n).toList)
    (hrun : ∀ archiver path created, (jobs i).archiver = .ok archiver →
      Directive.createFile s.files m.workDir
        (Directive.merge (jobs i).target ((jobs i).inputs archiver)) m.draw = .ok (path, created) →
      Spares jobs dir created (m.runner (Merger.archiverCall (jobs i).arch path) created).2) :
    let merged := m.archive (jobs i).arch (jobs i).target (jobs i).sources ⟨s.files, started⟩
    Steps jobs dir s (s.put i merged.2.files (.ended merged.1)) := by
  have hof : Archiver.ofArch (jobs i).arch m.settings = (jobs i).archiver := by
    rw [MergeJob.archiver, hset]
  cases ha : (jobs i).archiver with
  | error e =>
    simp only [Merger.archive, hof, ha]
    exact .tail s s _ (.refl s) (.refuse s i e hwait ha)
  | ok archiver =>
    cases hc : Directive.createFile s.files m.workDir
        (Directive.merge (jobs i).target ((jobs i).inputs archiver)) m.draw with
    | error e =>
      have hfailed : Step jobs dir s _ := .fail s i archiver m.draw e hwait ha (hdir ▸ hc)
      rw [MergeJob.inputs] at hc
      simp only [Merger.archive, hof, ha, hc]
      exact .tail s s _ (.refl s) hfailed
    | ok p =>
      obtain ⟨path, created⟩ := p
      simp only [archive_made m (jobs i).arch (jobs i).target path (jobs i).sources
        ⟨s.files, started⟩ archiver created (hof.trans ha) hc]
      have hspare := hrun archiver path created ha hc
      generalize hend : m.runner (Merger.archiverCall (jobs i).arch path) created = ended at hspare ⊢
      obtain ⟨outcome, after⟩ := ended
      have hmade : Steps jobs dir s (s.put i created (.live path none)) :=
        .tail s s _ (.refl s) (.create s i archiver m.draw path created hwait ha hdraw (hdir ▸ hc))
      have hread := hmade.tail_put (.read _ i path none (s.put_stage i created _))
      have hwork := hread.tail _ _ _ (.work _ after hspare)
      have hfinish := Steps.tail_put hwork
        (.finish _ i archiver path _ outcome (s.put_stage i after _) ha)
      exact hfinish.tail_put (.drop _ i path _ (s.put_stage i after _))

end

/-! ## Who holds which name -/

structure Placed (start fs : FileSystem) (dir : Nat) (job : MergeJob) (path : String) : Prop where
  drawn : ∃ drawn, '/' ∉ drawn.toList ∧
    path = Path.join (job.directory start) (Directive.fileName drawn)
  legal : refused? path = none ∧ ¬ nameLimit < (Path.lastName path).utf8ByteSize
  owned : fs.owns dir = true
  free : start.entry? dir (Path.lastName path) = none
  holds : ∃ text i, job.text? = some text ∧ fs.entry? dir (Path.lastName path) = some i ∧
    fs.owns i = true ∧ fs.node? i = some (.file (start.masked 0o600) text.toUTF8)

/-- What the archiver has found is its own directive; it finds nothing only if new files are
hidden from their owner. -/
def ReadOwn (start : FileSystem) (job : MergeJob) (seen : Option String) : Prop :=
  ∃ text, job.text? = some text ∧ (seen = some text ∨ seen = none) ∧
    (start.mask &&& 0o400 = 0 → seen = some text)

structure Inv (jobs : ι → MergeJob) (dir : Nat) (start : FileSystem) (s : Scene ι) : Prop where
  caller : SameCaller start s.files
  directory : s.files.isDirectory dir = true
  shared : ∀ i, s.files.locate ((jobs i).directory start) = .ok dir
  placed : ∀ i path, (s.stages i).file? = some path → Placed start s.files dir (jobs i) path
  apart : ∀ i j p q, (s.stages i).file? = some p → (s.stages j).file? = some q →
    Path.lastName p = Path.lastName q → i = j
  names : ∀ name, DirectiveNamed name →
    (∀ i path, (s.stages i).file? = some path → Path.lastName path ≠ name) →
      s.files.entry? dir name = start.entry? dir name
  nodes : ∀ name i n, DirectiveNamed name → start.entry? dir name = some i →
    start.node? i = some n → start.isDirectory i = false → s.files.node? i = some n
  read : ∀ i path seen, s.stages i = .live path (some seen) → ReadOwn start (jobs i) seen

section

variable {jobs : ι → MergeJob} {dir : Nat} {start : FileSystem} {s : Scene ι}

theorem inv_start (hd : start.isDirectory dir = true)
    (hs : ∀ i, start.locate ((jobs i).directory start) = .ok dir) :
    Inv jobs dir start ⟨start, fun _ => .waiting⟩ where
  caller := ⟨rfl, rfl, rfl⟩
  directory := hd
  shared := hs
  placed i path h := by simp [Stage.file?] at h
  apart i j p q h := by simp [Stage.file?] at h
  names name hn h := rfl
  nodes name i n hn he hi hf := hi
  read i path seen h := by simp at h

theorem directory_caller (job : MergeJob) (fs : FileSystem) (h : SameCaller start fs) :
    job.directory fs = job.directory start := by
  simp only [MergeJob.directory, h.workDir]

theorem locate_ne_empty (fs : FileSystem) (path : String) (i : Nat) (h : fs.locate path = .ok i) :
    path ≠ "" := by
  rintro rfl
  obtain ⟨t, ht, -⟩ := (locate_ok fs "" i).1 h
  exact absurd ((resolve_ok fs "" t).1 ht).1 (by simp [refused?])

/-- The name of a directive file is one. -/
theorem Placed.named {fs : FileSystem} {job : MergeJob} {path : String}
    (h : Placed start fs dir job path) (hbase : job.directory start ≠ "") :
    ∃ drawn, '/' ∉ drawn.toList ∧ Path.lastName path = Directive.fileName drawn ∧
      path = Path.join (job.directory start) (Directive.fileName drawn) := by
  obtain ⟨drawn, hdrawn, hpath⟩ := h.drawn
  refine ⟨drawn, hdrawn, ?_, hpath⟩
  rw [hpath]
  exact Path.lastName_join _ _ hbase (Directive.fileName_plain drawn hdrawn)

/-- The names that were there at the start are held by no merge. -/
theorem Inv.old (h : Inv jobs dir start s) {name : String} {i : Nat} (hname : DirectiveNamed name)
    (he : start.entry? dir name = some i) : s.files.entry? dir name = some i := by
  rw [h.names name hname fun k path hp hlast => ?_, he]
  have hfree := (h.placed k path hp).free
  rw [hlast, he] at hfree
  simp at hfree

/-- Whoever reads a directive file that is in its place reads that directive. -/
theorem Inv.reads (h : Inv jobs dir start s) (i : ι) (path : String)
    (hp : (s.stages i).file? = some path) :
    ReadOwn start (jobs i)
      (Host.inputText s.files (Merger.archiverCall (jobs i).arch path)) := by
  have hplaced := h.placed i path hp
  obtain ⟨drawn, hdrawn, hname, hpath⟩ :=
    hplaced.named (locate_ne_empty _ _ _ (h.shared i))
  obtain ⟨text, k, htext, he, ho, hn⟩ := hplaced.holds
  obtain ⟨hr, hlen⟩ := hplaced.legal
  rw [hname] at he hlen
  have hseen := Directive.inputText_file s.files _ drawn text dir k _
    (Merger.archiverCall (jobs i).arch path) (by rw [hpath]; rfl) (h.shared i) h.directory hdrawn
    (hpath ▸ hr) hlen he hn
  rw [hseen]
  refine ⟨text, htext, ?_, fun hm => ?_⟩
  · split
    · exact Or.inl rfl
    · exact Or.inr rfl
  · have hright : s.files.mayRead k (start.masked 0o600) = true := by
      rw [mayRead_foreign start s.files h.caller.foreign]
      exact mayRead_masked start k 0o600 (h.caller.owns ▸ ho) (by decide) hm
    rw [if_pos hright]

/-- Archivers leave everything that matters. -/
theorem Inv.work (h : Inv jobs dir start s) (files : FileSystem)
    (hspare : Spares jobs dir s.files files) : Inv jobs dir start { s with files := files } := by
  constructor
  case caller => exact h.caller.trans hspare.caller
  case directory => exact hspare.directory
  case shared => exact fun i => directory_caller (jobs i) s.files h.caller ▸ hspare.shared i
  case placed =>
    intro i path hp
    have hplaced := h.placed i path hp
    obtain ⟨drawn, -, hname, -⟩ := hplaced.named (locate_ne_empty _ _ _ (h.shared i))
    obtain ⟨text, k, htext, he, ho, hn⟩ := hplaced.holds
    have howns := hspare.caller.owns
    refine ⟨hplaced.drawn, hplaced.legal, howns ▸ hplaced.owned, hplaced.free,
      text, k, htext, ?_, howns ▸ ho, ?_⟩
    · rw [← he]
      exact hspare.names _ ⟨drawn, hname⟩
    · exact hspare.nodes _ k _ ⟨drawn, hname⟩ he hn (by simp [isDirectory, hn])
  case apart => exact h.apart
  case names => exact fun name hn hp => (hspare.names name hn).trans (h.names name hn hp)
  case nodes =>
    intro name i n hname he hn hf
    have hn' := h.nodes name i n hname he hn hf
    have hf' : s.files.isDirectory i = false := by simpa only [isDirectory, hn, hn'] using hf
    exact hspare.nodes name i n hname (h.old hname he) hn' hf'
  case read => exact h.read

/-- A file stays in its place when another name comes or goes. -/
theorem Placed.other {fs fs' : FileSystem} {job : MergeJob} {path name : String}
    (h : Placed start fs dir job path) (ho : OnlyName dir name fs fs')
    (hne : Path.lastName path ≠ name) : Placed start fs' dir job path := by
  obtain ⟨text, k, htext, he, hk, hn⟩ := h.holds
  have howns := ho.caller.owns
  refine ⟨h.drawn, h.legal, howns ▸ h.owned, h.free, text, k, htext, ?_, howns ▸ hk, ?_⟩
  · rw [ho.names _ hne, he]
  · exact ho.nodes k _ hn (by simp [isDirectory, hn])

/-- The name goes that the merge holds, and it was free at the start. -/
theorem Inv.drops (h : Inv jobs dir start s) (i : ι) (path : String)
    (hp : (s.stages i).file? = some path) :
    Directive.dropFile s.files path = s.files.removeEntry dir (Path.lastName path) ∧
    OnlyName dir (Path.lastName path) s.files (Directive.dropFile s.files path) ∧
    FileSystem.entry? (Directive.dropFile s.files path) dir (Path.lastName path) = none := by
  have hplaced := h.placed i path hp
  obtain ⟨drawn, hdrawn, hname, hpath⟩ := hplaced.named (locate_ne_empty _ _ _ (h.shared i))
  obtain ⟨text, k, -, he, -, hn⟩ := hplaced.holds
  obtain ⟨t, hparent, ht⟩ := parentOf_join s.files _ _ dir (h.shared i) h.directory
    (Directive.fileName_plain drawn hdrawn) (hpath ▸ hplaced.legal.1)
  rw [← hpath, ← hname] at hparent
  have hdrop : Directive.dropFile s.files path =
      s.files.removeEntry dir (Path.lastName path) := by
    rw [dropFile_removes s.files path _ t k hparent (ht ▸ hplaced.owned) (ht ▸ he)
      (by simp [isDirectory, hn]), ht]
  rw [hdrop]
  refine ⟨rfl, removeEntry_onlyName s.files dir _ h.directory fun j hj => ?_,
    (removeEntry_drops s.files dir _ h.directory).gone⟩
  rw [he, Option.some.injEq] at hj
  exact hj ▸ ⟨_, _, hn⟩

/-- What holds at every moment of every run, and once it is over. -/
structure Undisturbed (jobs : ι → MergeJob) (dir : Nat) (start : FileSystem) (s : Scene ι) :
    Prop where
  distinct : ∀ i j p q, i ≠ j → (s.stages i).file? = some p → (s.stages j).file? = some q →
    Path.lastName p ≠ Path.lastName q
  placed : ∀ i path, (s.stages i).file? = some path → Placed start s.files dir (jobs i) path
  read : ∀ i path seen, s.stages i = .live path (some seen) → ReadOwn start (jobs i) seen
  dropped : ∀ i path, (s.stages i).file? = some path →
    Dropped s.files (Directive.dropFile s.files path) dir (Path.lastName path)
  kept : ∀ name i, DirectiveNamed name → start.entry? dir name = some i →
    s.files.entry? dir name = some i ∧
      ∀ n, start.node? i = some n → start.isDirectory i = false → s.files.node? i = some n
  restored : (∀ i, (s.stages i).file? = none) →
    ∀ name, DirectiveNamed name → s.files.entry? dir name = start.entry? dir name

/-! ## The steps keep it -/

section

variable [DecidableEq ι]

theorem put_file (s : Scene ι) (i : ι) (files : FileSystem) (stage : Stage) (k : ι) :
    ((s.put i files stage).stages k).file? =
      if k = i then stage.file? else (s.stages k).file? := by
  by_cases hk : k = i
  · rw [if_pos hk, hk, Scene.put_stage]
  · simp [Scene.put, hk]

theorem put_live {i k : ι} {files : FileSystem} {stage : Stage} {path : String}
    {seen : Option (Option String)} (h : (s.put i files stage).stages k = .live path seen) :
    k = i ∧ stage = .live path seen ∨ s.stages k = .live path seen := by
  by_cases hk : k = i
  · rw [hk, Scene.put_stage] at h
    exact Or.inl ⟨hk, h⟩
  · exact Or.inr (by simpa [Scene.put, hk] using h)

/-- A step that moves no file and reads nothing false. -/
theorem Inv.restage (h : Inv jobs dir start s) (i : ι) (stage : Stage)
    (hfile : stage.file? = (s.stages i).file?)
    (hread : ∀ path seen, stage = .live path (some seen) → ReadOwn start (jobs i) seen) :
    Inv jobs dir start (s.put i s.files stage) := by
  have hsame : ∀ k, ((s.put i s.files stage).stages k).file? = (s.stages k).file? := by
    intro k
    rw [put_file]
    split
    · rename_i hk
      rw [hk, hfile]
    · rfl
  constructor
  case caller => exact h.caller
  case directory => exact h.directory
  case shared => exact h.shared
  case placed => exact fun k path hk => h.placed k path (hsame k ▸ hk)
  case apart => exact fun k j p q hk hj => h.apart k j p q (hsame k ▸ hk) (hsame j ▸ hj)
  case names => exact fun name hn hk => h.names name hn fun k path hp => hk k path (hsame k ▸ hp)
  case nodes => exact h.nodes
  case read =>
    intro k path seen hk
    rcases put_live hk with ⟨rfl, hstage⟩ | hold
    · exact hread path seen hstage
    · exact h.read k path seen hold

/-- One merge takes a name or gives it back: nobody else holds it. -/
theorem Inv.rename (h : Inv jobs dir start s) (i : ι) (files : FileSystem) (stage : Stage)
    (name : String) (ho : OnlyName dir name s.files files)
    (hothers : ∀ j path, j ≠ i → (s.stages j).file? = some path → Path.lastName path ≠ name)
    (hself : ∀ path, (s.stages i).file? = some path → Path.lastName path = name)
    (hplaced : ∀ path, stage.file? = some path →
      Path.lastName path = name ∧ Placed start files dir (jobs i) path)
    (hgone : stage.file? = none → files.entry? dir name = start.entry? dir name)
    (hread : ∀ path seen, stage ≠ .live path (some seen)) :
    Inv jobs dir start (s.put i files stage) := by
  constructor
  case caller => exact h.caller.trans ho.caller
  case directory => exact ho.directory
  case shared => exact fun j => ho.ways _ (h.shared j)
  case placed =>
    intro j path hp
    rw [put_file] at hp
    split at hp
    · rename_i hj
      exact hj ▸ (hplaced path hp).2
    · rename_i hj
      exact (h.placed j path hp).other ho (hothers j path hj hp)
  case apart =>
    intro j l p q hp hq heq
    rw [put_file] at hp hq
    split at hp <;> split at hq
    · rename_i hj hl
      exact hj.trans hl.symm
    · rename_i hl
      exact absurd (heq.symm.trans (hplaced p hp).1) (hothers l q hl hq)
    · rename_i hj _
      exact absurd (heq.trans (hplaced q hq).1) (hothers j p hj hp)
    · exact h.apart j l p q hp hq heq
  case names =>
    intro other hother hfree
    by_cases hname : other = name
    · subst hname
      apply hgone
      cases hf : stage.file? with
      | none => rfl
      -- The merge holds the name now, so nobody asks for it.
      | some path =>
        exact absurd (hplaced path hf).1 (hfree i path (by rw [put_file, if_pos rfl, hf]))
    · show files.entry? dir other = _
      rw [ho.names other hname]
      refine h.names other hother fun j path hp => ?_
      by_cases hj : j = i
      · subst hj
        exact fun heq => hname (heq ▸ hself path hp)
      · exact hfree j path (by rw [put_file, if_neg hj, hp])
  case nodes =>
    intro other j n hother he hj hd
    have hj' := h.nodes other j n hother he hj hd
    exact ho.nodes j n hj' (by simpa only [isDirectory, hj, hj'] using hd)
  case read =>
    intro j path seen hp
    rcases put_live hp with ⟨-, hstage⟩ | hold
    · exact absurd hstage (hread path seen)
    · exact h.read j path seen hold

/-- The new file gets a name that nobody holds. -/
theorem Inv.create (h : Inv jobs dir start s) (i : ι) (archiver : Archiver) (draw : Nat → String)
    (path : String) (files : FileSystem) (hwait : s.stages i = .waiting)
    (ha : (jobs i).archiver = .ok archiver) (hdraw : ∀ n, '/' ∉ (draw n).toList)
    (hc : Directive.createFile s.files (jobs i).workDir
      (Directive.merge (jobs i).target ((jobs i).inputs archiver)) draw = .ok (path, files)) :
    Inv jobs dir start (s.put i files (.live path none)) := by
  have hshared := h.shared i
  have hbase := locate_ne_empty _ _ _ hshared
  rw [← directory_caller (jobs i) s.files h.caller] at hshared
  obtain ⟨k, l, hpath, hr, hlen, hfree, ho, honly, he, hl, hn⟩ :=
    Directive.createFile_in s.files files _ path _ draw dir hshared h.directory hdraw hc
  replace hpath : path = Path.join ((jobs i).directory start) (Directive.fileName (draw k)) := by
    rw [hpath, ← directory_caller (jobs i) s.files h.caller]
    rfl
  have hlast : Path.lastName path = Directive.fileName (draw k) := by
    rw [hpath]
    exact Path.lastName_join _ _ hbase (Directive.fileName_plain _ (hdraw k))
  have hheld : ∀ j q, (s.stages j).file? = some q →
      Path.lastName q ≠ Directive.fileName (draw k) := by
    -- A name that is held is in the directory.
    intro j q hq heq
    obtain ⟨-, l, -, he, -⟩ := (h.placed j q hq).holds
    rw [heq, hfree] at he
    simp at he
  have hself : (s.stages i).file? = none := by rw [hwait]; rfl
  refine h.rename i files _ _ honly (fun j q _ => hheld j q) ?_ ?_ ?_ ?_
  · simp [hself]
  · intro q hq
    simp only [Stage.file?, Option.some.injEq] at hq
    subst hq
    have howns := honly.caller.owns
    have hmask : s.files.masked 0o600 = start.masked 0o600 := by rw [h.caller.masked]
    refine ⟨hlast, ⟨draw k, hdraw k, hpath⟩, ⟨hr, hlast ▸ hlen⟩, howns ▸ ho, ?_,
      _, l, (jobs i).text?_archiver archiver ha, hlast ▸ he, howns ▸ hl, hmask ▸ hn⟩
    rw [hlast, ← h.names _ ⟨draw k, rfl⟩ hheld]
    exact hfree
  · simp [Stage.file?]
  · simp

theorem Inv.drop (h : Inv jobs dir start s) (i : ι) (path : String)
    (result : Except MergeError Merged) (hstage : s.stages i = .finished path result) :
    Inv jobs dir start (s.put i (Directive.dropFile s.files path) (.ended result)) := by
  have hp : (s.stages i).file? = some path := by rw [hstage]; rfl
  obtain ⟨-, honly, hgone⟩ := h.drops i path hp
  refine h.rename i _ _ _ honly (fun j q hj hq heq => hj (h.apart j i q path hq hp heq)) ?_ ?_ ?_ ?_
  · intro q hq
    rw [hp, Option.some.injEq] at hq
    rw [hq]
  · simp [Stage.file?]
  · intro _
    rw [hgone, (h.placed i path hp).free]
  · simp

theorem Step.inv {s' : Scene ι} (hstep : Step jobs dir s s') (h : Inv jobs dir start s) :
    Inv jobs dir start s' := by
  cases hstep with
  | refuse i e hwait ha =>
    exact h.restage i _ (by rw [hwait]; rfl) (by simp)
  | fail i archiver draw e hwait ha hc =>
    exact h.restage i _ (by rw [hwait]; rfl) (by simp)
  | create i archiver draw path files hwait ha hdraw hc =>
    exact h.create i archiver draw path files hwait ha hdraw hc
  | read i path seen hlive =>
    have hp : (s.stages i).file? = some path := by rw [hlive]; rfl
    refine h.restage i _ (by rw [hlive]; rfl) fun q text hq => ?_
    simp only [Stage.live.injEq, Option.some.injEq] at hq
    exact hq.2 ▸ h.reads i path hp
  | work files hspare => exact h.work files hspare
  | finish i archiver path seen outcome hlive ha =>
    exact h.restage i _ (by rw [hlive]; rfl) (by simp)
  | drop i path result hfinished => exact h.drop i path result hfinished

theorem Steps.inv {s' : Scene ι} (hsteps : Steps jobs dir s s') (h : Inv jobs dir start s) :
    Inv jobs dir start s' := by
  induction hsteps with
  | refl => exact h
  | tail s' s'' _ hstep ih => exact hstep.inv ih

/-- Merges that share a directory do not disturb each other. -/
theorem merges_undisturbed (jobs : ι → MergeJob) (dir : Nat) (start : FileSystem) (s : Scene ι)
    (hd : start.isDirectory dir = true)
    (hs : ∀ i, start.locate ((jobs i).directory start) = .ok dir)
    (hsteps : Steps jobs dir ⟨start, fun _ => .waiting⟩ s) : Undisturbed jobs dir start s := by
  have h := hsteps.inv (inv_start hd hs)
  constructor
  case distinct => exact fun i j p q hij hp hq heq => hij (h.apart i j p q hp hq heq)
  case placed => exact h.placed
  case read => exact h.read
  case dropped =>
    intro i path hp
    rw [(h.drops i path hp).1]
    exact removeEntry_drops s.files dir _ h.directory
  case kept => exact fun name i hname he => ⟨h.old hname he, fun n => h.nodes name i n hname he⟩
  case restored =>
    intro hnone name hname
    exact h.names name hname fun i path hp => by simp [hnone i] at hp

end

end

end

def leftover : FileSystem where
  nodes := #[.directory [("tmp", 1)], .directory [("libmergerAAAAAA.mri", 2)],
    .file 0o600 "END\n".toUTF8]
  workDir := "/"

def twoMerges : Bool → MergeJob
  | false => ⟨.x86, {}, "tmp", "a.a", ["b.a", "c.a"]⟩
  | true => ⟨.aarch32, { toolchainRoot := some "/opt" }, "/tmp/", "d.a", ["e.a", "f.a"]⟩

theorem twoMerges_undisturbed :
    leftover.isDirectory 1 = true ∧
    (∀ i, leftover.locate ((twoMerges i).directory leftover) = .ok 1) ∧
    ∃ s, Steps twoMerges 1 ⟨leftover, fun _ => .waiting⟩ s ∧
      (s.stages false).file? = some "/tmp/libmergerBAAAAA.mri" ∧
      (s.stages true).file? = some "/tmp/libmergerCAAAAA.mri" ∧
      Undisturbed twoMerges 1 leftover s := by
  have hd : leftover.isDirectory 1 = true := rfl
  have hs : ∀ i, leftover.locate ((twoMerges i).directory leftover) = .ok 1 := by
    rintro (_ | _) <;> rfl
  obtain ⟨one, two, hone, htwo⟩ : ∃ one two,
      Directive.createFile leftover "tmp" (Directive.merge "a.a" ["b.a", "c.a"])
        Directive.variablePart = .ok ("/tmp/libmergerBAAAAA.mri", one) ∧
      Directive.createFile one "/tmp/"
        (Directive.merge "d.a" ["e.a", "f.a", "/opt/" ++ Settings.defaultRuntimeLib])
        Directive.variablePart = .ok ("/tmp/libmergerCAAAAA.mri", two) := ⟨_, _, rfl, rfl⟩
  have hplain := Directive.variablePart_plain
  have hfirst : Steps twoMerges 1 ⟨leftover, fun _ => .waiting⟩ _ :=
    .tail _ _ _ (.refl _) (.create _ false _ Directive.variablePart _ one rfl rfl hplain hone)
  have hsecond := hfirst.tail _ _ _
    (.create _ true _ Directive.variablePart _ two rfl rfl hplain htwo)
  exact ⟨hd, hs, _, hsecond, rfl, rfl, merges_undisturbed twoMerges 1 leftover _ hd hs hsecond⟩

end ImageTools.Merges
