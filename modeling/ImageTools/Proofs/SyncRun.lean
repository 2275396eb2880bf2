import ImageTools.ScriptSet
import ImageTools.Proofs.ScriptRun

/-!
# Synchronising an image

Whatever the commands of the script for an image do, it leaves no image
mounted and claims no success that there was not: a mounted image is unmounted
exactly once, and only if everything went well is that printed.
-/

set_option autoImplicit false

namespace ImageTools

namespace Shell

def Event.command (e : Event) : List String :=
  if e.words.head? = some "sudo" then e.words.tail else e.words

def runsOf (name : String) (events : List Event) : List Event :=
  events.filter fun e => e.command.head? == some name

theorem runsOf_append (name : String) (a b : List Event) :
    runsOf name (a ++ b) = runsOf name a ++ runsOf name b := List.filter_append ..

end Shell

namespace ScriptSet
open Shell Shell.Trace Script

def mountpoint (base : String) : String := base ++ "/mountpoint"

def Copies (w : World) (base tree : String) (e : Event) : Prop :=
  ∃ t, e.command =
    "cp" :: "-r" :: namesOf w t (treePattern (tree ++ "/base")) ++ [mountpoint base ++ "/"]

/-- The copies that follow a mount: the built tree is copied only over a base
tree that has been copied. -/
def InTurn (w : World) (base out : String) : List Event → Prop
  | [] => True
  | [b] => Copies w base base b
  | [b, o] => Copies w base base b ∧ b.status = 0 ∧ Copies w base out o
  | _ => False

def Succeeded (mount : Event) (after : List Event) : Prop :=
  mount.status = 0 ∧
  (runsOf "cp" after).length = 2 ∧ (∀ e ∈ runsOf "cp" after, e.status = 0) ∧
  (runsOf "umount" after).length = 1 ∧ ∀ e ∈ runsOf "umount" after, e.status = 0

/-- What is expected of a run that mounts an image once. -/
structure Orderly (w : World) (base out : String) (before : List Event) (mount : Event)
    (after : List Event) (t : Trace) : Prop where
  events : t.events = before ++ mount :: after
  mounts : mount.command =
    ["fuse-ext2", Emulator.diskImagePath out, mountpoint base, "-o", "rw+"]
  once : runsOf "fuse-ext2" (before ++ after) = []
  untouched : runsOf "cp" before = [] ∧ runsOf "umount" before = []
  failed : mount.status ≠ 0 → runsOf "cp" after = [] ∧ runsOf "umount" after = [] ∧ t.status = 1
  /-- Nothing but a message follows the unmounting. -/
  unmounted : mount.status = 0 → ∃ during unmount message,
    after = during ++ [unmount, message] ∧ unmount.command = ["umount", mountpoint base] ∧
      runsOf "umount" during = [] ∧ message.words.head? = some "echo"
  copied : InTurn w base out (runsOf "cp" after)
  announced : (∃ e ∈ t.events, e.words = "echo" :: shown "SUCCESS" "Sync") ↔ Succeeded mount after
  status : (t.status = 0 ↔ Succeeded mount after) ∧ (t.status = 0 ∨ t.status = 1)

/-! ## The stages of the run -/

section
variable (w : World) (base out : String)

def makingAll (t : Trace) (paths : List String) : Trace :=
  paths.foldl (fun t path => t.call w ["sudo", "mkdir", "-p", path]) t

def mountWords : List String :=
  ["sudo", "fuse-ext2", Emulator.diskImagePath out, mountpoint base, "-o", "rw+"]

def mounted : Trace :=
  (makingAll w begun [base ++ "/base/dev", base ++ "/base/proc", mountpoint base]).call w
    (mountWords base out)

def copying (t : Trace) (tree : String) : Trace :=
  t.call w ("sudo" :: "cp" :: "-r" :: namesOf w t (treePattern (tree ++ "/base")) ++
    [mountpoint base ++ "/"])

def baseCopied : Trace :=
  copying w base (makingAll w (mounted w base out)
    [mountpoint base ++ "/boot", mountpoint base ++ "/proc"]) base

def outCopied : Trace := copying w base (baseCopied w base out) out

def unmounting (t : Trace) : Trace := t.call w ["sudo", "umount", mountpoint base]

def synced : Trace :=
  if (mounted w base out).status ≠ 0 then
    abort (mounted w base out) ("Can't mount one.img to " ++ mountpoint base)
  else if (baseCopied w base out).status ≠ 0 then
    abort (unmounting w base (baseCopied w base out))
      ("Can't copy " ++ base ++ "/base to " ++ mountpoint base)
  else if (outCopied w base out).status ≠ 0 then
    abort (unmounting w base (outCopied w base out))
      ("Can't copy " ++ out ++ "/base to " ++ mountpoint base)
  else if (unmounting w base (outCopied w base out)).status ≠ 0 then
    abort (unmounting w base (outCopied w base out)) ("Can't umount " ++ mountpoint base)
  else (unmounting w base (outCopied w base out)).print (shown "SUCCESS" "Sync")

theorem sync_effects :
    effects? w (sync base out).elevated (sync base out).steps begun = some (synced w base out) := by
  have hmount : ∀ steps, effects? w true
      (.makeDirectory (base ++ "/base/dev") :: .makeDirectory (base ++ "/base/proc") :: .blank ::
        .makeDirectory (mountpoint base) ::
        .mount (Emulator.diskImagePath out) (mountpoint base) :: steps) begun =
      effects? w true steps (mounted w base out) := fun _ => rfl
  have hbase : ∀ steps, effects? w true
      (.makeDirectory (mountpoint base ++ "/boot") :: .makeDirectory (mountpoint base ++ "/proc") ::
        .copyTree (base ++ "/base") (mountpoint base) :: steps) (mounted w base out) =
      effects? w true steps (baseCopied w base out) := fun _ => rfl
  have hout : ∀ steps, effects? w true
      (.copyTree (out ++ "/base") (mountpoint base) :: steps) (baseCopied w base out) =
      effects? w true steps (outCopied w base out) := fun _ => rfl
  have hunmount : ∀ steps, effects? w true
      (.unmount (mountpoint base) :: steps) (outCopied w base out) =
      effects? w true steps (unmounting w base (outCopied w base out)) := fun _ => rfl
  refine (hmount _).trans ((effects_abort w true _ _ _ rfl).trans ?_)
  rw [synced]
  by_cases h₁ : (mounted w base out).status = 0
  · rw [if_pos h₁, if_neg (not_not_intro h₁)]
    refine (hbase _).trans ((effects_unmount w true _ _ _ _ rfl).trans ?_)
    by_cases h₂ : (baseCopied w base out).status = 0
    · rw [if_pos h₂, if_neg (not_not_intro h₂)]
      refine (hout _).trans ((effects_unmount w true _ _ _ _ rfl).trans ?_)
      by_cases h₃ : (outCopied w base out).status = 0
      · rw [if_pos h₃, if_neg (not_not_intro h₃)]
        refine (hunmount _).trans ((effects_abort w true _ _ _ rfl).trans ?_)
        by_cases h₄ : (unmounting w base (outCopied w base out)).status = 0
        · rw [if_pos h₄, if_neg (not_not_intro h₄)]
          rfl
        · rw [if_neg h₄, if_pos h₄]
          rfl
      · rw [if_neg h₃, if_pos h₃]
        rfl
    · rw [if_neg h₂, if_pos h₂]
      rfl
  · rw [if_neg h₁, if_pos h₁]
    rfl

/-! ## The events of the stages -/

def Runs (name : String) (events : List Event) : Prop :=
  ∀ e ∈ events, ∃ args, e.words = "sudo" :: name :: args

theorem runsOf_runs (name other : String) (events : List Event) (h : Runs name events) :
    runsOf other events = if name = other then events else [] := by
  have hhead : ∀ e ∈ events, e.command.head? = some name := by
    intro e he
    obtain ⟨args, hwords⟩ := h e he
    simp [Event.command, hwords]
  split
  · rename_i hname
    rw [runsOf, List.filter_eq_self]
    exact fun e he => by simp [hhead e he, hname]
  · rename_i hname
    rw [runsOf, List.filter_eq_nil_iff]
    exact fun e he => by simp [hhead e he, hname]

theorem runs_words (name : String) (events : List Event) (h : Runs name events)
    (args : List String) : ∀ e ∈ events, e.words ≠ "echo" :: args := by
  intro e he hecho
  obtain ⟨rest, hwords⟩ := h e he
  rw [hwords] at hecho
  exact absurd (List.cons.inj hecho).1 (by decide)

theorem making_events (paths : List String) (t : Trace) :
    ∃ made, (makingAll w t paths).events = t.events ++ made ∧ Runs "mkdir" made := by
  induction paths generalizing t with
  | nil => exact ⟨[], (List.append_nil _).symm, by simp [Runs]⟩
  | cons path paths ih =>
    obtain ⟨made, hevents, hmade⟩ := ih (t.call w ["sudo", "mkdir", "-p", path])
    refine ⟨⟨["sudo", "mkdir", "-p", path], w.statuses t.events.length⟩ :: made, ?_, ?_⟩
    · refine hevents.trans ?_
      rw [call, List.append_assoc]
      rfl
    · intro e he
      rcases List.mem_cons.1 he with rfl | he
      · exact ⟨["-p", path], rfl⟩
      · exact hmade e he

theorem copying_events (t : Trace) (tree : String) :
    ∃ copy, (copying w base t tree).events = t.events ++ [copy] ∧ Runs "cp" [copy] ∧
      Copies w base tree copy ∧ copy.status = (copying w base t tree).status := by
  refine ⟨_, rfl, fun e he => ?_, ⟨t, if_pos rfl⟩, rfl⟩
  rw [List.mem_singleton.1 he]
  exact ⟨_, rfl⟩

theorem mounted_events :
    ∃ before mount, (mounted w base out).events = before ++ [mount] ∧ Runs "mkdir" before ∧
      mount.words = mountWords base out ∧ mount.status = (mounted w base out).status := by
  obtain ⟨before, hopening, hbefore⟩ := making_events w
    [base ++ "/base/dev", base ++ "/base/proc", mountpoint base] begun
  exact ⟨before, _, congrArg (· ++ _) hopening, hbefore, rfl, rfl⟩

theorem baseCopied_events :
    ∃ made copy, (baseCopied w base out).events = (mounted w base out).events ++ (made ++ [copy]) ∧
      Runs "mkdir" made ∧ Runs "cp" [copy] ∧ Copies w base base copy ∧
        copy.status = (baseCopied w base out).status := by
  obtain ⟨made, hmaking, hmade⟩ := making_events w
    [mountpoint base ++ "/boot", mountpoint base ++ "/proc"] (mounted w base out)
  obtain ⟨copy, hcopying, hcopy⟩ := copying_events w base
    (makingAll w (mounted w base out) [mountpoint base ++ "/boot", mountpoint base ++ "/proc"]) base
  rw [hmaking, List.append_assoc] at hcopying
  exact ⟨made, copy, hcopying, hmade, hcopy⟩

theorem unmounting_events (t : Trace) :
    ∃ unmount, (unmounting w base t).events = t.events ++ [unmount] ∧
      unmount.words = ["sudo", "umount", mountpoint base] ∧
      unmount.status = (unmounting w base t).status :=
  ⟨_, rfl, rfl, rfl⟩

theorem abort_events (t : Trace) (message : String) :
    (abort t message).events = t.events ++ [⟨"echo" :: shown "ERROR" message, 0⟩] := rfl

theorem print_events (t : Trace) (args : List String) :
    (t.print args).events = t.events ++ [⟨"echo" :: args, 0⟩] := rfl

theorem shown_differs (message : String) : shown "ERROR" message ≠ shown "SUCCESS" "Sync" := by
  intro h
  have herror : (colours.lookup "ERROR").getD [] = "\\033[0;31m[ERROR]\\033[0m".toList := rfl
  have hsuccess : (colours.lookup "SUCCESS").getD [] =
      "\\033[0;32m[SUCCESS]\\033[0m".toList := rfl
  rw [shown, shown, herror, hsuccess] at h
  have htext := congrArg String.toList (List.cons.inj (List.cons.inj h).2).1
  simp at htext

theorem runsOf_message (name : String) (args : List String) (hn : name ≠ "echo") :
    runsOf name [⟨"echo" :: args, 0⟩] = [] := by
  simpa [runsOf, Event.command] using Ne.symm hn

/-! ## A run is orderly -/

def Done (copies : List Event) (unmount : Event) : Prop :=
  copies.length = 2 ∧ (∀ e ∈ copies, e.status = 0) ∧ unmount.status = 0

structure Unmounted (before made copies : List Event) (mount unmount : Event) (t : Trace) :
    Prop where
  opening : Runs "mkdir" before
  mounting : mount.words = mountWords base out
  mounted : mount.status = 0
  making : Runs "mkdir" made
  copying : Runs "cp" copies
  turn : InTurn w base out copies
  unmounting : unmount.words = ["sudo", "umount", mountpoint base]
  events : t.events = before ++ [mount] ++ (made ++ copies ++ [unmount])

variable {before made copies : List Event} {mount unmount : Event} {t : Trace}

theorem runs_unmount (h : unmount.words = ["sudo", "umount", mountpoint base]) :
    Runs "umount" [unmount] := by
  intro e he
  rw [List.mem_singleton.1 he]
  exact ⟨_, h⟩

theorem runs_mount (h : mount.words = mountWords base out) : Runs "fuse-ext2" [mount] := by
  intro e he
  rw [List.mem_singleton.1 he]
  exact ⟨_, h⟩

theorem unmounted_runs (h : Unmounted w base out before made copies mount unmount t)
    (args : List String) (name : String) (hname : name ≠ "echo") :
    runsOf name (made ++ copies ++ [unmount] ++ [⟨"echo" :: args, 0⟩]) =
      (if "mkdir" = name then made else []) ++ (if "cp" = name then copies else []) ++
        (if "umount" = name then [unmount] else []) := by
  have hu := runs_unmount base h.unmounting
  rw [runsOf_append, runsOf_append, runsOf_append, runsOf_runs _ _ _ h.making,
    runsOf_runs _ _ _ h.copying, runsOf_runs _ _ _ hu, runsOf_message _ _ hname, List.append_nil]

/-- Only the last message can be the one of success. -/
theorem unmounted_says (h : Unmounted w base out before made copies mount unmount t)
    (args : List String) :
    (∃ e ∈ t.events ++ [⟨"echo" :: args, 0⟩], e.words = "echo" :: shown "SUCCESS" "Sync") ↔
      args = shown "SUCCESS" "Sync" := by
  constructor
  · rintro ⟨e, he, hwords⟩
    simp only [h.events, List.mem_append] at he
    rcases he with ((he | he) | ((he | he) | he)) | he
    · exact absurd hwords (runs_words _ _ h.opening _ e he)
    · exact absurd hwords (runs_words _ _ (runs_mount base out h.mounting) _ e he)
    · exact absurd hwords (runs_words _ _ h.making _ e he)
    · exact absurd hwords (runs_words _ _ h.copying _ e he)
    · exact absurd hwords (runs_words _ _ (runs_unmount base h.unmounting) _ e he)
    · rw [List.mem_singleton.1 he] at hwords
      exact (List.cons.inj hwords).2
  · rintro rfl
    exact ⟨⟨"echo" :: shown "SUCCESS" "Sync", 0⟩, by simp, rfl⟩

/-- A message follows, which tells whether all is done. -/
theorem unmounted_orderly (h : Unmounted w base out before made copies mount unmount t)
    (args : List String) (status : UInt8) (t' : Trace)
    (ht : t'.events = t.events ++ [⟨"echo" :: args, 0⟩]) (hs : t'.status = status)
    (hend : (Done copies unmount ∧ args = shown "SUCCESS" "Sync" ∧ status = 0) ∨
      (¬Done copies unmount ∧ (∃ message, args = shown "ERROR" message) ∧ status = 1)) :
    Orderly w base out before mount (made ++ copies ++ [unmount] ++ [⟨"echo" :: args, 0⟩]) t' := by
  have hruns := unmounted_runs w base out h args
  have hsaid := unmounted_says w base out h args
  rw [← ht] at hsaid
  have hevents : t'.events =
      before ++ mount :: (made ++ copies ++ [unmount] ++ [⟨"echo" :: args, 0⟩]) := by
    simp [ht, h.events]
  generalize hafter : made ++ copies ++ [unmount] ++ [⟨"echo" :: args, 0⟩] = after
    at hruns hevents ⊢
  have hcp : runsOf "cp" after = copies := by simp [hruns]
  have hum : runsOf "umount" after = [unmount] := by simp [hruns]
  have hsucceeded : Succeeded mount after ↔ Done copies unmount := by
    rw [Succeeded, hcp, hum, Done]
    simp [h.mounted]
  constructor
  case events => exact hevents
  case mounts => simp [Event.command, h.mounting, mountWords]
  case once =>
    rw [runsOf_append, runsOf_runs _ _ _ h.opening, hruns _ (by decide)]
    rfl
  case untouched => exact ⟨runsOf_runs _ _ _ h.opening, runsOf_runs _ _ _ h.opening⟩
  case failed => exact fun hm => absurd h.mounted hm
  case unmounted =>
    intro _
    have hduring : runsOf "umount" (made ++ copies) = [] := by
      rw [runsOf_append, runsOf_runs _ _ _ h.making, runsOf_runs _ _ _ h.copying]
      rfl
    have hcommand : unmount.command = ["umount", mountpoint base] := by
      simp [Event.command, h.unmounting]
    exact ⟨made ++ copies, unmount, ⟨"echo" :: args, 0⟩, by simp [← hafter], hcommand, hduring, rfl⟩
  case copied =>
    rw [hcp]
    exact h.turn
  case announced =>
    rw [hsaid, hsucceeded]
    rcases hend with ⟨hdone, hargs, -⟩ | ⟨hdone, ⟨message, rfl⟩, -⟩
    · simp [hdone, hargs]
    · simp [hdone, shown_differs]
  case status =>
    rw [hsucceeded, hs]
    rcases hend with ⟨hdone, -, rfl⟩ | ⟨hdone, -, rfl⟩ <;> simp [hdone]

theorem aborted_orderly (h : Unmounted w base out before made copies mount unmount t)
    (hd : ¬Done copies unmount) (message : String) :
    ∃ before mount after, Orderly w base out before mount after (abort t message) :=
  ⟨before, mount, _, unmounted_orderly w base out h _ 1 _ (abort_events t message) rfl
    (Or.inr ⟨hd, ⟨message, rfl⟩, rfl⟩)⟩

theorem printed_orderly (h : Unmounted w base out before made copies mount unmount t)
    (hd : Done copies unmount) : ∃ before mount after,
      Orderly w base out before mount after (t.print (shown "SUCCESS" "Sync")) :=
  ⟨before, mount, _, unmounted_orderly w base out h _ 0 _ (print_events t _) rfl
    (Or.inl ⟨hd, rfl, rfl⟩)⟩

/-- The mount has failed: nothing but a message follows. -/
theorem unmountable_orderly (message : String) (ht : t.events = before ++ [mount])
    (hbefore : Runs "mkdir" before) (hmount : mount.words = mountWords base out)
    (hm : mount.status ≠ 0) :
    ∃ before mount after, Orderly w base out before mount after (abort t message) := by
  have hevents : (abort t message).events =
      before ++ [mount, ⟨"echo" :: shown "ERROR" message, 0⟩] := by
    simp [abort_events, ht]
  have hruns := fun name => runsOf_message name (shown "ERROR" message)
  have hsucceeded : ¬Succeeded mount [⟨"echo" :: shown "ERROR" message, 0⟩] := fun h => hm h.1
  have hsaid : ¬∃ e ∈ (abort t message).events, e.words = "echo" :: shown "SUCCESS" "Sync" := by
    rintro ⟨e, he, hwords⟩
    rw [hevents, List.mem_append, List.mem_cons, List.mem_singleton] at he
    rcases he with he | rfl | rfl
    · exact runs_words _ _ hbefore _ e he hwords
    · exact runs_words _ _ (runs_mount base out hmount) _ e (List.mem_singleton_self e) hwords
    · exact shown_differs message (List.cons.inj hwords).2
  exists before, mount, [⟨"echo" :: shown "ERROR" message, 0⟩]
  constructor
  case events => exact hevents
  case mounts => simp [Event.command, hmount, mountWords]
  case once =>
    rw [runsOf_append, runsOf_runs _ _ _ hbefore, hruns _ (by decide)]
    rfl
  case untouched => exact ⟨runsOf_runs _ _ _ hbefore, runsOf_runs _ _ _ hbefore⟩
  case failed => exact fun _ => ⟨hruns _ (by decide), hruns _ (by decide), rfl⟩
  case unmounted => exact fun h => absurd h hm
  case copied =>
    rw [hruns _ (by decide)]
    trivial
  case announced => exact iff_of_false hsaid hsucceeded
  case status => simp [hsucceeded, abort]

theorem synced_orderly :
    ∃ before mount after, Orderly w base out before mount after (synced w base out) := by
  obtain ⟨before, mount, hmounted, hbefore, hmount, hstatus⟩ := mounted_events w base out
  obtain ⟨made, b, hbase, hmade, hbruns, hbcopies, hbstatus⟩ := baseCopied_events w base out
  obtain ⟨o, hout, horuns, hocopies, hostatus⟩ := copying_events w base (baseCopied w base out) out
  change (outCopied w base out).events = _ at hout
  change o.status = (outCopied w base out).status at hostatus
  rw [hmounted] at hbase
  have hboth : Runs "cp" [b, o] := by
    intro e he
    rcases List.mem_cons.1 he with rfl | he
    · exact hbruns e (List.mem_singleton_self e)
    · exact horuns e he
  rw [synced]
  by_cases h₁ : (mounted w base out).status = 0
  · rw [if_neg (not_not_intro h₁)]
    rw [← hstatus] at h₁
    have hstage := fun t copies unmount hruns hturn hwords hevents =>
      (⟨hbefore, hmount, h₁, hmade, hruns, hturn, hwords, hevents⟩ :
        Unmounted w base out before made copies mount unmount t)
    by_cases h₂ : (baseCopied w base out).status = 0
    · rw [if_neg (not_not_intro h₂)]
      rw [← hbstatus] at h₂
      obtain ⟨u, hu, huwords, hustatus⟩ := unmounting_events w base (outCopied w base out)
      have hunmounted := hstage (unmounting w base (outCopied w base out)) [b, o] u hboth
        ⟨hbcopies, h₂, hocopies⟩ huwords (by simp [hu, hout, hbase])
      by_cases h₃ : (outCopied w base out).status = 0
      · rw [if_neg (not_not_intro h₃)]
        by_cases h₄ : (unmounting w base (outCopied w base out)).status = 0
        · rw [if_neg (not_not_intro h₄)]
          exact printed_orderly w base out hunmounted
            (by simp [Done, h₂, hostatus, h₃, hustatus, h₄])
        · rw [if_pos h₄]
          exact aborted_orderly w base out hunmounted (by simp [Done, hustatus, h₄]) _
      · rw [if_pos h₃]
        exact aborted_orderly w base out hunmounted (by simp [Done, hostatus, h₃]) _
    · rw [if_pos h₂]
      obtain ⟨u, hu, huwords, -⟩ := unmounting_events w base (baseCopied w base out)
      exact aborted_orderly w base out (hstage (unmounting w base (baseCopied w base out)) [b] u
        hbruns hbcopies huwords (by simp [hu, hbase])) (by simp [Done]) _
  · rw [if_pos h₁]
    rw [← hstatus] at h₁
    exact unmountable_orderly w base out _ hmounted hbefore hmount h₁

end

theorem sync_plain (base out : String) : ∀ step ∈ (sync base out).steps, IsPlain step := by
  simp [sync, IsPlain]

/-- Whatever the commands of the script for the image do, the image is mounted
once; if that succeeds it is unmounted once, as the last thing but a message;
the built tree is copied only over a base tree that was copied; and success is
printed, with status zero, only if all of that succeeded. -/
theorem sync_orderly (w : World) (arch : Arch) (baseDir outDir : String) (s : Settings) :
    ∃ file ∈ render arch baseDir outDir s, file.name = "sync.sh" ∧
      ∃ t, run? w file.contents = some t ∧ ∃ before mount after,
        Orderly w (Path.dropSlash baseDir) (Path.dropSlash outDir) before mount after t := by
  refine ⟨_, List.mem_cons_self, rfl, synced w (Path.dropSlash baseDir) (Path.dropSlash outDir), ?_,
    synced_orderly w _ _⟩
  exact (run_render w _ (sync_plain _ _)).trans (sync_effects w _ _)

end ScriptSet

end ImageTools
