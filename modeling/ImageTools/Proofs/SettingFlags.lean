import ImageTools.CommandLine.Command
import ImageTools.Proofs.DirectiveFile
import ImageTools.Proofs.Number

/-!
# The flags of the settings

Two settings can be given by flags, on every level of a command line. Such a flag
says nothing but the setting: without it, a command line that is accepted is read
as the same command with the same other flags.
-/

set_option autoImplicit false

namespace ImageTools

inductive Setting
  | toolchainRoot
  | emulator

namespace Setting

def other : Setting → Setting
  | .toolchainRoot => .emulator
  | .emulator => .toolchainRoot

def flagName : Setting → String
  | .toolchainRoot => "toolchain-root"
  | .emulator => "emulator"

def flag : Setting → Manifest.Flags → Option String
  | .toolchainRoot => Manifest.Flags.toolchainRoot
  | .emulator => Manifest.Flags.emulator

def clear : Setting → Manifest.Flags → Manifest.Flags
  | .toolchainRoot, flags => { flags with toolchainRoot := none }
  | .emulator, flags => { flags with emulator := none }

end Setting

namespace CommandLine

/-! ## Words that are flags -/

def givesFlag (name word : String) : Bool :=
  ('-' :: '-' :: (name.toList ++ ['='])).isPrefixOf word.toList

def withoutFlag (name : String) : List String → List String
  | [] => []
  | w :: r =>
    if w = "--" then w :: r
    else if w = "--" ++ name then
      match r with
      | [] => []
      | _ :: r => withoutFlag name r
    else if givesFlag name w then withoutFlag name r
    else w :: withoutFlag name r

structure FlagName (name : String) : Prop where
  nonempty : name.toList ≠ []
  noEquals : '=' ∉ name.toList

namespace Grammar

/-- Two dashes, the name and perhaps a value after an equals sign. -/
theorem form_name {name w : String} (hname : FlagName name) (rest : List Char)
    (hrest : rest = [] ∨ rest.head? = some '=')
    (hw : w.toList = '-' :: '-' :: (name.toList ++ rest)) :
    form w = .long name (rest.tail?.map String.ofList) := by
  have hall : ∀ d ∈ name.toList, (d != '=') = true := by
    intro d hd
    rw [bne_iff_ne]
    rintro rfl
    exact hname.noEquals hd
  have hstop : ∀ d ∈ rest.head?, (d != '=') = false := by
    intro d hd
    rcases hrest with rfl | hrest
    · cases hd
    · obtain rfl : '=' = d := by simpa [hrest] using hd
      rfl
  obtain ⟨htake, hdrop⟩ := span_run hall hstop
  obtain ⟨c, r, hchars⟩ := List.exists_cons_of_ne_nil hname.nonempty
  have hform : form w = .long (String.ofList ((name.toList ++ rest).takeWhile (· != '=')))
      (((name.toList ++ rest).dropWhile (· != '=')).tail?.map String.ofList) := by
    simp only [form, hw, hchars, List.cons_append]
  rw [hform, htake, hdrop, String.ofList_toList]

theorem form_flag {name : String} (hname : FlagName name) :
    form ("--" ++ name) = .long name none :=
  form_name hname [] (Or.inl rfl) (by simp)

theorem form_givesFlag {name w : String} (hname : FlagName name) (h : givesFlag name w = true) :
    ∃ value, form w = .long name (some value) := by
  obtain ⟨value, hw⟩ := List.isPrefixOf_iff_prefix.1 h
  exact ⟨_, form_name hname ('=' :: value) (Or.inr rfl) (by rw [← hw]; simp)⟩

theorem dashes_of_form {w : String} (h : form w = .dashes) : w = "--" := by
  unfold form at h
  split at h
  · rename_i hw
    exact String.toList_injective hw
  all_goals cases h

theorem chars_of_form {w name : String} {value : Option String}
    (h : form w = .long name value) :
    ∃ rest, w.toList = '-' :: '-' :: (name.toList ++ rest) ∧
      (rest = [] ∨ rest.head? = some '=') ∧ value = rest.tail?.map String.ofList := by
  unfold form at h
  split at h
  · cases h
  · rename_i r _ hw
    cases h
    refine ⟨r.dropWhile (· != '='), ?_, ?_, rfl⟩
    · rw [hw, String.toList_ofList, List.takeWhile_append_dropWhile]
    · have hhead := List.head?_dropWhile_not (· != '=') r
      cases hrest : r.dropWhile (· != '=') with
      | nil => exact Or.inl rfl
      | cons d rest => simp_all
  all_goals cases h

theorem form_of_isPlain {w : String} (h : isPlain w = true) : form w = .plain := by
  unfold isPlain at h
  split at h
  · assumption
  · cases h

theorem flag_of_form {w name : String} (h : form w = .long name none) : w = "--" ++ name := by
  obtain ⟨rest, hw, hrest, hvalue⟩ := chars_of_form h
  cases rest with
  | nil => exact String.toList_injective (by simp [hw])
  | cons c rest => simp at hvalue

theorem givesFlag_of_form {w name value : String} (h : form w = .long name (some value)) :
    givesFlag name w = true := by
  obtain ⟨rest, hw, hrest, hvalue⟩ := chars_of_form h
  cases rest with
  | nil => simp at hvalue
  | cons c rest =>
    obtain rfl : c = '=' := by simpa using hrest
    rw [givesFlag, List.isPrefixOf_iff_prefix, hw]
    exact ⟨rest, by simp⟩

end Grammar

/-- A word that is not an occurrence of the flag stays. -/
theorem withoutFlag_kept {name w : String} (hname : FlagName name) (r : List String)
    (hdashes : Grammar.form w ≠ .dashes)
    (hlong : ∀ value, Grammar.form w ≠ .long name value) :
    withoutFlag name (w :: r) = w :: withoutFlag name r := by
  have hw : w ≠ "--" := by
    rintro rfl
    exact hdashes rfl
  have hflag : w ≠ "--" ++ name := by
    rintro rfl
    exact hlong none (Grammar.form_flag hname)
  have hgives : givesFlag name w = false := by
    cases h : givesFlag name w with
    | false => rfl
    | true =>
      obtain ⟨value, hform⟩ := Grammar.form_givesFlag hname h
      exact absurd hform (hlong _)
  cases r <;> simp [withoutFlag, hw, hflag, hgives]

theorem withoutFlag_dashes (name : String) (r : List String) :
    withoutFlag name ("--" :: r) = "--" :: r := by
  cases r <;> rfl

theorem withoutFlag_flag {name : String} (hname : FlagName name) (v : String) (r : List String) :
    withoutFlag name (("--" ++ name) :: v :: r) = withoutFlag name r := by
  have hdashes : "--" ++ name ≠ "--" := by
    intro h
    have hform := Grammar.form_flag hname
    rw [h] at hform
    cases hform
  rw [withoutFlag, if_neg hdashes, if_pos rfl]

theorem withoutFlag_gives {name w : String} (hname : FlagName name) (r : List String)
    (h : givesFlag name w = true) : withoutFlag name (w :: r) = withoutFlag name r := by
  obtain ⟨value, hform⟩ := Grammar.form_givesFlag hname h
  have hdashes : w ≠ "--" := by
    rintro rfl
    cases hform
  have hflag : w ≠ "--" ++ name := by
    rintro rfl
    rw [Grammar.form_flag hname] at hform
    cases hform
  cases r <;> simp [withoutFlag, hdashes, hflag, h]

/-! ## What a level was given -/

def Given.without (given : Given) (name : String) : Given :=
  { given with values := given.values.filter fun v => v.1 != name }

theorem lookup_without (given : Given) {name other : String} (h : other ≠ name) :
    (given.without name).values.lookup other = given.values.lookup other :=
  FileSystem.lookup_filter_ne given.values name other h

theorem lookup_without_self (given : Given) (name : String) :
    (given.without name).values.lookup name = none :=
  FileSystem.lookup_filter_self given.values name

def Scan.IsBare : Scan → Prop
  | .finished _ => False
  | .command _ _ _ _ => False
  | _ => True

namespace Grammar

variable {g : Grammar} {name : String} {given s : Given}

theorem accept?_other {n v : String} (h : g.accept? given n v = some s) (hn : n ≠ name) :
    g.accept? (given.without name) n v = some (s.without name) := by
  unfold accept? at h ⊢
  rw [lookup_without given hn]
  split at h
  · split at h
    · rename_i hfree
      cases h
      rw [if_pos hfree]
      simp [Given.without, hn]
    · cases h
  · cases h

theorem accept?_flag {v : String} (h : g.accept? given name v = some s) :
    s.without name = given.without name := by
  unfold accept? at h
  split at h
  · split at h
    · cases h
      simp [Given.without]
    · cases h
  · cases h

theorem addOperand?_without {w : String} (h : g.addOperand? given w = some s) :
    g.addOperand? (given.without name) w = some (s.without name) := by
  unfold addOperand? at h ⊢
  split at h
  · split at h
    · cases h
      simp_all [Given.without]
    · cases h
  · cases h

theorem longFlag_without {n : String} (h : g.longFlag given n = .inl s) :
    g.longFlag (given.without name) n = .inl (s.without name) := by
  unfold longFlag at h ⊢
  split at h
  · cases h
  split at h
  · cases h
  split at h
  · cases h
    simp_all
  split at h
  · cases h
    simp_all [Given.without]
  · cases h

/-- Two states of a level that are the same up to a flag once what is open has been
checked. Taking the flag in checks what was open before it, so that without the flag
it is open for longer. -/
def Settles (g : Grammar) (name : String) (given : Given) (unchecked : Option (String × String))
    (given' : Given) (unchecked' : Option (String × String)) : Prop :=
  ∀ s, g.settle? given unchecked = some s → g.settle? given' unchecked' = some (s.without name)

/-- What was read is read without the flag too. Of a reading that gives no command
nothing is said. -/
def Survives (g : Grammar) (name : String) : Scan → Scan → Prop
  | .finished s, scan => scan = .finished (s.without name)
  | .command given unchecked n r, scan => ∃ given' unchecked',
      scan = .command given' unchecked' n (withoutFlag name r) ∧
      g.Settles name given unchecked given' unchecked'
  | _, _ => True

theorem settles_given (given : Given) : g.Settles name given none (given.without name) none := by
  intro s h
  cases h
  rfl

theorem settles_value {n v : String} (hn : n ≠ name) :
    g.Settles name given (some (n, v)) (given.without name) (some (n, v)) :=
  fun _ h => accept?_other h hn

theorem survives_finish : g.Survives name (g.finish given) (g.finish (given.without name)) := by
  unfold finish
  split
  · simp_all [Survives, Given.without]
  · trivial

theorem survives_scanOperands (r : List String) :
    g.Survives name (g.scanOperands given r) (g.scanOperands (given.without name) r) := by
  induction r generalizing given with
  | nil => exact survives_finish
  | cons w r ih =>
    cases hnext : g.addOperand? given w with
    | none =>
      simp only [scanOperands, hnext]
      trivial
    | some next =>
      simp only [scanOperands, hnext, addOperand?_without hnext]
      exact ih

theorem longFlag_bare {n : String} {scan : Scan} (h : g.longFlag given n = .inr scan) :
    scan.IsBare := by
  unfold longFlag at h
  repeat' split at h
  all_goals
    cases h
    try trivial

theorem cluster_bare {letters : List Char} {scan : Scan} (h : g.cluster letters = some scan) :
    scan.IsBare := by
  fun_induction Grammar.cluster g letters with
  | case1 => cases h
  | case2 => cases h; trivial
  | case3 r ih => exact ih h
  | case4 =>
    cases h
    split <;> trivial
  | case5 => cases h; trivial

theorem survives_bare {scan : Scan} (h : scan.IsBare) (other : Scan) :
    g.Survives name scan other := by
  cases scan with
  | finished s => exact h.elim
  | command given unchecked n r => exact h.elim
  | _ => trivial

variable (hname : FlagName name) (hkind : ∃ kind, g.kindOf? name = some kind)
variable (hplain : g.commands.all isPlain = true)

include hname hkind hplain

theorem scan_without (given : Given) (unchecked : Option (String × String)) (words : List String)
    (given' : Given) (unchecked' : Option (String × String))
    (h : g.Settles name given unchecked given' unchecked') :
    g.Survives name (g.scan given unchecked words)
      (g.scan given' unchecked' (withoutFlag name words)) := by
  fun_induction Grammar.scan g given unchecked words generalizing given' unchecked' with
  | case1 given unchecked s hs =>
    rw [withoutFlag, scan, h s hs]
    exact survives_finish
  | case2 => trivial
  | case3 given unchecked w r hw =>
    have hform := form_of_isPlain (List.all_eq_true.1 hplain w hw)
    rw [withoutFlag_kept hname r (by simp [hform]) (by simp [hform]), scan, if_pos hw]
    exact ⟨given', unchecked', rfl, h⟩
  | case4 => trivial
  | case5 given unchecked w r hw s hs hform =>
    obtain rfl := dashes_of_form hform
    rw [withoutFlag_dashes, scan, if_neg hw, h s hs]
    simp only [hform]
    exact survives_scanOperands r
  | case6 given unchecked w r hw s hs n v hform next hnext ih =>
    by_cases hn : n = name
    · -- The word is gone, and nothing was checked without it.
      subst hn
      rw [withoutFlag_gives hname r (givesFlag_of_form hform)]
      refine ih given' unchecked' ?_
      rintro _ ⟨⟩
      rw [accept?_flag hnext]
      exact h s hs
    · rw [withoutFlag_kept hname r (by simp [hform]) (by simp [hform, hn]), scan, if_neg hw, h s hs]
      simp only [hform, accept?_other hnext hn]
      exact ih _ _ (settles_given next)
  | case7 => trivial
  | case8 given unchecked w hw s hs n hform kind hk v r hv ih =>
    by_cases hn : n = name
    · -- Two words are gone; the flag's value is open in the one reading only.
      subst hn
      obtain rfl := flag_of_form hform
      rw [withoutFlag_flag hname]
      refine ih given' unchecked' ?_
      intro t ht
      rw [accept?_flag ht]
      exact h s hs
    · have hvalue := form_of_isPlain hv
      rw [withoutFlag_kept hname _ (by simp [hform]) (by simp [hform, hn]),
        withoutFlag_kept hname r (by simp [hvalue]) (by simp [hvalue]), scan, if_neg hw, h s hs]
      simp only [hform, hk, hv, if_true]
      exact ih _ _ (settles_value hn)
  | case9 => trivial
  | case10 => trivial
  | case11 given unchecked w r hw s hs n hform hk next hnext ih =>
    have hn : n ≠ name := by
      rintro rfl
      simp [hk] at hkind
    rw [withoutFlag_kept hname r (by simp [hform]) (by simp [hform, hn]), scan, if_neg hw, h s hs]
    simp only [hform, hk, longFlag_without hnext]
    exact ih _ _ (settles_given next)
  | case12 given unchecked w r hw s hs n hform hk scan hscan =>
    exact survives_bare (longFlag_bare hscan) _
  | case13 given unchecked w r hw s hs letters hform scan hscan =>
    exact survives_bare (cluster_bare hscan) _
  | case14 given unchecked w r hw s hs letters hform hcluster ih =>
    rw [withoutFlag_kept hname r (by simp [hform]) (by simp [hform]), scan, if_neg hw, h s hs]
    simp only [hform, hcluster]
    exact ih _ _ (settles_given s)
  | case15 given unchecked w r hw s hs hform next hnext ih =>
    rw [withoutFlag_kept hname r (by simp [hform]) (by simp [hform]), scan, if_neg hw, h s hs]
    simp only [hform, addOperand?_without hnext]
    exact ih _ _ (settles_given next)
  | case16 => trivial

end Grammar

/-! ## Command lines -/

section

variable (x : Setting)

theorem flagName_name : FlagName x.flagName := by
  cases x <;> exact ⟨by simp [Setting.flagName], by simp [Setting.flagName]⟩

theorem kindOf?_flagName (g : Grammar) : g.kindOf? x.flagName = some .path := by
  rw [Grammar.kindOf?, List.lookup_append]
  cases x <;> rfl

theorem layer_without (above : Manifest.Flags) (given : Given) :
    layer (x.clear above) (given.without x.flagName) = x.clear (layer above given) := by
  have hself := lookup_without_self given x.flagName
  have hne : x.other.flagName ≠ x.flagName := by
    cases x <;> decide
  have hother : (given.without x.flagName).values.lookup x.other.flagName =
      given.values.lookup x.other.flagName := lookup_without given hne
  cases x with
  | toolchainRoot =>
    simp only [Setting.flagName, Setting.other] at hself hother
    simp only [layer, Setting.clear, Setting.flagName, hself, hother]
    rfl
  | emulator =>
    simp only [Setting.flagName, Setting.other] at hself hother
    simp only [layer, Setting.clear, Setting.flagName, hself, hother]
    rfl

theorem readLeaf_without {g : Grammar} {above flags : Manifest.Flags} {words : List String}
    {command? : Given → Option Command} {command : Command} (hg : g.commands = [])
    (hcommand : ∀ given, command? (given.without x.flagName) = command? given)
    (h : readLeaf g above words command? = .run flags command) :
    readLeaf g (x.clear above) (withoutFlag x.flagName words) command? =
      .run (x.clear flags) command := by
  have hscan := Grammar.scan_without (flagName_name x) ⟨_, kindOf?_flagName x g⟩ (by simp [hg])
    {} none words {} none (Grammar.settles_given {})
  unfold readLeaf at h ⊢
  split at h
  · cases h
  · cases h
  · cases h
  · cases h
  · rename_i given hfinished
    rw [hfinished] at hscan
    rw [show g.scan {} none (withoutFlag x.flagName words) = _ from hscan]
    split at h
    · rename_i hsome
      cases h
      simp only [hcommand, hsome, layer_without]
    · cases h

theorem within_without {g : Grammar} {above flags : Manifest.Flags} {given given' : Given}
    {unchecked unchecked' : Option (String × String)} {command : Command}
    {deeper deeper' : Manifest.Flags → Request}
    (hs : g.Settles x.flagName given unchecked given' unchecked')
    (hdeeper : ∀ above flags, deeper above = .run flags command →
      deeper' (x.clear above) = .run (x.clear flags) command)
    (h : within g above given unchecked deeper = .run flags command) :
    within g (x.clear above) given' unchecked' deeper' = .run (x.clear flags) command := by
  unfold within at h
  split at h
  · rename_i s hsettled
    rw [within, hs s hsettled]
    simp only [layer_without]
    exact hdeeper _ _ h
  · split at h <;> cases h

theorem readHelp_ne_run (levels : List (String × List String)) (words : List String)
    (flags : Manifest.Flags) (command : Command) : readHelp levels words ≠ .run flags command := by
  intro h
  unfold readHelp at h
  split at h
  · cases h
  split at h
  · cases h
  split at h
  · cases h
  · split at h <;> cases h
  · cases h

theorem readArch_without {above flags : Manifest.Flags} {words : List String} {command : Command}
    (h : readArch above words = .run flags command) :
    readArch (x.clear above) (withoutFlag x.flagName words) = .run (x.clear flags) command := by
  have hscan := Grammar.scan_without (flagName_name x) ⟨_, kindOf?_flagName x arch⟩ rfl {} none
    words {} none (Grammar.settles_given {})
  unfold readArch at h
  split at h
  · cases h
  · cases h
  · cases h
  · cases h
  · rename_i given unchecked name rest hfound
    rw [hfound] at hscan
    obtain ⟨given', unchecked', hfound', hs⟩ := hscan
    rw [readArch, hfound']
    simp only
    split at h
    · exact absurd h (readHelp_ne_run _ _ _ _)
    · rename_i hhelp
      rw [if_neg hhelp]
      refine within_without x hs (fun above flags hdeeper => ?_) h
      split at hdeeper
      · rename_i hlist
        rw [if_pos hlist]
        exact readLeaf_without x rfl (fun _ => rfl) hdeeper
      · rename_i hlist
        rw [if_neg hlist]
        exact readLeaf_without x rfl (fun _ => rfl) hdeeper

theorem readCommand_without {name : String} {rest : List String} {above flags : Manifest.Flags}
    {command : Command} (h : readCommand name rest above = .run flags command) :
    readCommand name (withoutFlag x.flagName rest) (x.clear above) =
      .run (x.clear flags) command := by
  unfold readCommand at h ⊢
  by_cases hmerge : name = "merge-libs"
  · rw [if_pos hmerge] at h ⊢
    exact readLeaf_without x rfl (fun _ => rfl) h
  rw [if_neg hmerge] at h ⊢
  by_cases hbuild : name = "build-scripts"
  · rw [if_pos hbuild] at h ⊢
    exact readLeaf_without x rfl (fun _ => rfl) h
  rw [if_neg hbuild] at h ⊢
  by_cases harch : name = "arch"
  · rw [if_pos harch] at h ⊢
    exact readArch_without x h
  rw [if_neg harch] at h ⊢
  refine readLeaf_without x rfl (fun given => ?_) h
  have hflag : "arch" ≠ x.flagName := by
    cases x <;> decide
  rw [lookup_without given hflag]

/-- A command line that is accepted is read without a flag as the same command
with the same other flag. -/
theorem read_without {words : List String} {flags : Manifest.Flags} {command : Command}
    (h : read words = .run flags command) :
    read (withoutFlag x.flagName words) = .run (x.clear flags) command := by
  have hscan := Grammar.scan_without (flagName_name x) ⟨_, kindOf?_flagName x top⟩ rfl {} none
    words {} none (Grammar.settles_given {})
  unfold read at h
  split at h
  · cases h
  · cases h
  · cases h
  · cases h
  · rename_i given unchecked name rest hfound
    rw [hfound] at hscan
    obtain ⟨given', unchecked', hfound', hs⟩ := hscan
    rw [read, hfound']
    simp only
    split at h
    · exact absurd h (readHelp_ne_run _ _ _ _)
    · rename_i hhelp
      rw [if_neg hhelp]
      have hempty : x.clear {} = {} := by
        cases x <;> rfl
      have hwithin := within_without x hs (fun _ _ => readCommand_without x) h
      rwa [hempty] at hwithin

end

end CommandLine

end ImageTools
