import Mathlib.Tactic.SplitIfs
import ImageTools.Toml.Document

/-!
# What a document says

Every entry has a place in its document: the names of its header and of its
key in turn. The table of a document holds a value at a path exactly if an entry
stands there, or a table between braces that holds it further down. Whether the
place is spelled by a header, by dots or by braces makes no difference, and
nothing else in the document does.
-/

set_option autoImplicit false

namespace ImageTools.Toml

/-! ## Values and their places -/

def inside : List String → Value → Option Value
  | [], v => some v
  | k :: path, .table _ es => (es.lookup k).bind (inside path)
  | _ :: _, _ => none

def IsLeaf : Value → Prop
  | .table _ _ => False
  | .tables _ => False
  | _ => True

def valueAt (es : Entries) (path : List String) : Option Value := inside path (.table .header es)

/-- The entries with their places, below the header that is named; none is known
for the items of a list of tables. -/
def placed : Option (List String) → List Expression → List (List String × Value)
  | _, [] => []
  | current, .entry key v :: es =>
    (current.map fun path => (path ++ key, v)).toList ++ placed current es
  | _, .header path :: es => placed (some path) es
  | _, .element _ :: es => placed none es

/-- An entry gives the path this value. -/
def Says (es : List Expression) (path : List String) (v : Value) : Prop :=
  ∃ entry ∈ placed (some []) es, ∃ rest, path = entry.1 ++ rest ∧ inside rest entry.2 = some v

section

variable {v : Value} (h : IsLeaf v)

include h

theorem inside_table (path : List String) (origin : Origin) (es : Entries) :
    inside path (.table origin es) = some v ↔ valueAt es path = some v := by
  cases path with
  | nil => constructor <;> intro heq <;> cases heq <;> exact absurd h id
  | cons k path => rfl

theorem inside_tables (path : List String) (items : List Entries) :
    inside path (.tables items) ≠ some v := by
  cases path with
  | nil =>
    intro heq
    cases heq
    exact h
  | cons k path => exact nofun

theorem valueAt_nil (path : List String) : valueAt [] path ≠ some v := by
  cases path with
  | nil =>
    intro heq
    cases heq
    exact h
  | cons k path => exact nofun

end

/-! ## Growth -/

def Grown (New : List String → Value → Prop) (es es' : Entries) : Prop :=
  ∀ path v, IsLeaf v → (valueAt es' path = some v ↔ valueAt es path = some v ∨ New path v)

/-- What is new behind a path, given what is new in the table that it leads to.
Nothing can be seen in a list of tables. -/
def Through (New : Entries → List String → Value → Prop) :
    List String → Entries → List String → Value → Prop
  | [], es, path, v => New es path v
  | k :: front, es, path, v => ∃ rest, path = k :: rest ∧
    match es.lookup k with
    | some (.tables _) => False
    | some (.table _ inner) => Through New front inner rest v
    | _ => Through New front [] rest v

/-- A table grows under one name if the others keep what they stand for. -/
theorem grown_at {es es' : Entries} {k : String} {New : List String → Value → Prop}
    (hother : ∀ name, name ≠ k → es'.lookup name = es.lookup name)
    (hself : ∀ rest v, IsLeaf v → ((es'.lookup k).bind (inside rest) = some v ↔
      (es.lookup k).bind (inside rest) = some v ∨ New rest v)) :
    Grown (fun path v => ∃ rest, path = k :: rest ∧ New rest v) es es' := by
  intro path v hv
  cases path with
  | nil =>
    have hnone : ∀ es : Entries, valueAt es [] ≠ some v := by
      intro es heq
      cases heq
      exact hv
    simp [hnone]
  | cons name rest =>
    simp only [valueAt, inside]
    by_cases hname : name = k
    · subst hname
      simp only [List.cons.injEq, true_and, exists_eq_left']
      exact hself rest v hv
    · rw [hother name hname]
      simp [hname]

theorem lookup_put {es es' : Entries} {k : String} {v : Value}
    (h : es.lookup k = none ∧ es' = es ++ [(k, v)] ∨
      ∃ old, es.lookup k = some old ∧ es' = es.replace k v) :
    es'.lookup k = some v ∧ ∀ name, name ≠ k → es'.lookup name = es.lookup name := by
  rcases h with ⟨hnone, rfl⟩ | ⟨old, hold, rfl⟩
  · refine ⟨by rw [Entries.lookup_append_new es k k v hnone, if_pos rfl], fun name hname => ?_⟩
    rw [Entries.lookup_append_new es k name v hnone, if_neg hname]
  · exact ⟨Entries.lookup_replace_self es k old v hold,
      fun name hname => Entries.lookup_replace_ne es k name v hname⟩

theorem update_grown {way : Way} {change : Origin → Entries → Option Entries}
    {New : Entries → List String → Value → Prop}
    (hchange : ∀ origin es es', change origin es = some es' → Grown (New es) es es')
    (front : List String) (origin : Origin) (es es' : Entries)
    (h : update way change front origin es = some es') : Grown (Through New front es) es es' := by
  induction front generalizing origin es es' with
  | nil => exact hchange origin es es' h
  | cons k front ih =>
    rw [update] at h
    cases hk : es.lookup k with
    | none =>
      rw [hk] at h
      obtain ⟨inner', hinner, rfl⟩ := Option.map_eq_some_iff.1 h
      obtain ⟨hself, hother⟩ := lookup_put (Or.inl ⟨hk, rfl⟩)
      have hgrown := ih _ _ _ hinner
      refine grown_at hother fun rest v hv => ?_
      rw [hself, hk, Option.bind_some, inside_table hv, hgrown rest v hv]
      simp [valueAt_nil hv]
    | some old =>
      rw [hk] at h
      cases old with
      | table origin inner =>
        obtain ⟨-, h⟩ := Option.ite_none_right_eq_some.1 h
        obtain ⟨inner', hinner, rfl⟩ := Option.map_eq_some_iff.1 h
        obtain ⟨hself, hother⟩ := lookup_put (Or.inr ⟨_, hk, rfl⟩)
        refine grown_at hother fun rest v hv => ?_
        rw [hself, hk, Option.bind_some, Option.bind_some, inside_table hv, inside_table hv]
        exact ih _ _ _ hinner rest v hv
      | tables items =>
        simp only at h
        split at h
        · cases h
        · obtain ⟨inner', -, rfl⟩ := Option.map_eq_some_iff.1 h
          obtain ⟨hself, hother⟩ := lookup_put (Or.inr ⟨_, hk, rfl⟩)
          refine grown_at hother fun rest v hv => ?_
          rw [hself, hk]
          simp [inside_tables hv]
      | _ => cases h

/-! ## Expressions -/

def Added (name : String) (w : Value) (_ : Entries) (path : List String) (v : Value) : Prop :=
  ∃ rest, path = name :: rest ∧ inside rest w = some v

def Nothing (_ : Entries) (_ : List String) (_ : Value) : Prop := False

theorem insertNew_grown (es es' : Entries) (name : String) (w : Value)
    (h : insertNew es name w = some es') : Grown (Added name w es) es es' := by
  obtain ⟨hnew, heq⟩ := Option.ite_none_left_eq_some.1 h
  have hnone : es.lookup name = none := Option.not_isSome_iff_eq_none.1 hnew
  obtain ⟨hself, hother⟩ := lookup_put (Or.inl ⟨hnone, (Option.some.inj heq).symm⟩)
  refine grown_at hother fun rest v hv => ?_
  simp [hself, hnone]

theorem grown_nothing {es es' : Entries} {k : String}
    (hother : ∀ name, name ≠ k → es'.lookup name = es.lookup name)
    (hself : ∀ rest v, IsLeaf v → ((es'.lookup k).bind (inside rest) = some v ↔
      (es.lookup k).bind (inside rest) = some v)) : Grown (Nothing es) es es' := by
  intro path v hv
  have hnew : Grown (fun path _ => ∃ rest, path = k :: rest ∧ False) es es' := grown_at hother
    fun rest v hv => (hself rest v hv).trans (or_false _).symm.to_iff
  simpa [Nothing] using hnew path v hv

theorem openTable_grown (es es' : Entries) (name : String) (h : openTable name es = some es') :
    Grown (Nothing es) es es' := by
  rw [openTable] at h
  split at h
  · rename_i hnone
    obtain ⟨hself, hother⟩ := lookup_put (Or.inl ⟨hnone, (Option.some.inj h).symm⟩)
    refine grown_nothing hother fun rest v hv => ?_
    simp [hself, hnone, inside_table hv, valueAt_nil hv]
  · rename_i inner hold
    obtain ⟨hself, hother⟩ := lookup_put (Or.inr ⟨_, hold, (Option.some.inj h).symm⟩)
    refine grown_nothing hother fun rest v hv => ?_
    rw [hself, hold, Option.bind_some, Option.bind_some, inside_table hv, inside_table hv]
  · cases h

theorem openElement_grown (es es' : Entries) (name : String) (h : openElement name es = some es') :
    Grown (Nothing es) es es' := by
  rw [openElement] at h
  split at h
  · rename_i hnone
    obtain ⟨hself, hother⟩ := lookup_put (Or.inl ⟨hnone, (Option.some.inj h).symm⟩)
    refine grown_nothing hother fun rest v hv => ?_
    simp [hself, hnone, inside_tables hv]
  · rename_i items hold
    obtain ⟨hself, hother⟩ := lookup_put (Or.inr ⟨_, hold, (Option.some.inj h).symm⟩)
    refine grown_nothing hother fun rest v hv => ?_
    simp [hself, hold, inside_tables hv]
  · cases h

theorem through_nothing (front : List String) (es : Entries) (path : List String) (v : Value) :
    ¬Through Nothing front es path v := by
  induction front generalizing es path with
  | nil => exact id
  | cons k front ih =>
    rintro ⟨rest, -, h⟩
    split at h
    · exact h
    · exact ih _ _ h
    · exact ih _ _ h

theorem addValue_grown (key : List String) (w : Value) (origin : Origin) (es es' : Entries)
    (h : addValue key w origin es = some es') :
    Grown (Through (Added (key.getLastD "") w) key.dropLast es) es es' := by
  refine update_grown (fun origin es es' hchange => ?_) _ _ _ _ h
  obtain ⟨-, hinsert⟩ := Option.ite_none_right_eq_some.1 hchange
  exact insertNew_grown es es' _ w hinsert

theorem through_split {New : Entries → List String → Value → Prop} (front : List String)
    (es : Entries) (path : List String) (v : Value) (h : Through New front es path v) :
    ∃ rest inner, path = front ++ rest ∧ New inner rest v := by
  induction front generalizing es path with
  | nil => exact ⟨path, es, rfl, h⟩
  | cons k front ih =>
    obtain ⟨rest, rfl, h⟩ := h
    split at h
    · exact h.elim
    · obtain ⟨rest, inner, rfl, hnew⟩ := ih _ _ h
      exact ⟨rest, inner, rfl, hnew⟩
    · obtain ⟨rest, inner, rfl, hnew⟩ := ih _ _ h
      exact ⟨rest, inner, rfl, hnew⟩

/-! ## Lists of tables -/

def Lists (es : Entries) (name : String) : Prop := ∃ items, es.lookup name = some (.tables items)

theorem through_free {New : Entries → List String → Value → Prop} {es : Entries} {k : String}
    {rest : List String} {v : Value} (hfree : ¬Lists es k) (hnew : ∀ inner, New inner rest v) :
    Through New [k] es (k :: rest) v := by
  refine ⟨rest, rfl, ?_⟩
  split
  · rename_i items hk
    exact hfree ⟨items, hk⟩
  · exact hnew _
  · exact hnew _

theorem lists_put {es es' : Entries} {k : String} {v : Value}
    (h : es.lookup k = none ∧ es' = es ++ [(k, v)] ∨
      ∃ old, es.lookup k = some old ∧ es' = es.replace k v)
    (hsame : (∃ items, v = .tables items) ↔ Lists es k) (name : String) :
    Lists es' name ↔ Lists es name := by
  obtain ⟨hself, hother⟩ := lookup_put h
  by_cases hname : name = k
  · subst hname
    rw [← hsame, Lists, hself]
    simp
  · rw [Lists, Lists, hother name hname]

theorem update_lists {way : Way} {change : Origin → Entries → Option Entries}
    (hchange : ∀ origin es es', change origin es = some es' →
      ∀ name, Lists es' name ↔ Lists es name)
    (front : List String) (origin : Origin) (es es' : Entries)
    (h : update way change front origin es = some es') (name : String) :
    Lists es' name ↔ Lists es name := by
  cases front with
  | nil => exact hchange origin es es' h name
  | cons k front =>
    rw [update] at h
    split at h
    · rename_i hk
      obtain ⟨inner', -, rfl⟩ := Option.map_eq_some_iff.1 h
      exact lists_put (Or.inl ⟨hk, rfl⟩) (by simp [Lists, hk]) name
    · rename_i hk
      obtain ⟨-, h⟩ := Option.ite_none_right_eq_some.1 h
      obtain ⟨inner', -, rfl⟩ := Option.map_eq_some_iff.1 h
      exact lists_put (Or.inr ⟨_, hk, rfl⟩) (by simp [Lists, hk]) name
    · rename_i hk
      split at h
      · cases h
      · obtain ⟨inner', -, rfl⟩ := Option.map_eq_some_iff.1 h
        exact lists_put (Or.inr ⟨_, hk, rfl⟩) (by simp [Lists, hk]) name
    · cases h

theorem insertNew_lists (es es' : Entries) (name : String) (w : Value)
    (hw : ∀ items, w ≠ .tables items) (h : insertNew es name w = some es') (other : String) :
    Lists es' other ↔ Lists es other := by
  obtain ⟨hnew, heq⟩ := Option.ite_none_left_eq_some.1 h
  have hnone : es.lookup name = none := Option.not_isSome_iff_eq_none.1 hnew
  exact lists_put (Or.inl ⟨hnone, (Option.some.inj heq).symm⟩) (by simp [Lists, hnone, hw]) other

theorem openTable_closed (es es' : Entries) (name : String) (h : openTable name es = some es') :
    ¬Lists es' name := by
  rw [openTable] at h
  split at h
  · rename_i hnone
    obtain ⟨hself, -⟩ := lookup_put (Or.inl ⟨hnone, (Option.some.inj h).symm⟩)
    simp [Lists, hself]
  · rename_i hold
    obtain ⟨hself, -⟩ := lookup_put (Or.inr ⟨_, hold, (Option.some.inj h).symm⟩)
    simp [Lists, hself]
  · cases h

theorem openElement_lists (es es' : Entries) (name : String) (h : openElement name es = some es') :
    Lists es' name := by
  rw [openElement] at h
  split at h
  · rename_i hnone
    exact ⟨_, (lookup_put (Or.inl ⟨hnone, (Option.some.inj h).symm⟩)).1⟩
  · rename_i hold
    exact ⟨_, (lookup_put (Or.inr ⟨_, hold, (Option.some.inj h).symm⟩)).1⟩
  · cases h

/-! ## The document -/

def Expression.IsProper : Expression → Prop
  | .entry key v => key ≠ [] ∧ ∀ items, v ≠ .tables items
  | .header path => path ≠ []
  | .element path => path ≠ []

theorem keyParts_ne_nil (n : Nat) (cs rest : List Char) (path : List String)
    (h : keyParts n cs = some (path, rest)) : path ≠ [] := by
  cases n with
  | zero => cases h
  | succ n =>
    rw [keyParts] at h
    split at h
    · cases h
    · split at h
      · obtain ⟨p, -, hp⟩ := Option.map_eq_some_iff.1 h
        exact (Prod.mk.inj hp).1 ▸ List.cons_ne_nil _ _
      · exact (Prod.mk.inj (Option.some.inj h)).1 ▸ List.cons_ne_nil _ _

section

variable (items : List Entries)

theorem scalar?_plain (cs : List Char) : scalar? cs ≠ some (.tables items) := by
  intro h
  unfold scalar? at h
  split_ifs at h <;> simp at h

theorem scalar_plain (cs rest : List Char) : scalar cs ≠ some (.tables items, rest) := by
  intro h
  have hrun : ∀ run rest',
      (scalar? run).map (fun v => (v, rest')) ≠ some (.tables items, rest) := by
    intro run rest' h
    obtain ⟨v, hv, hpair⟩ := Option.map_eq_some_iff.1 h
    exact scalar?_plain items run ((Prod.mk.inj hpair).1 ▸ hv)
  simp only [scalar] at h
  split at h
  · split at h
    · simp at h
    · exact hrun _ _ h
  · exact hrun _ _ h

theorem value_plain (depth : Nat) (cs rest : List Char) :
    value depth cs ≠ some (.tables items, rest) := by
  intro h
  unfold value at h
  split at h
  · simp at h
  · simp at h
  · unfold atom at h
    split at h
    · simp at h
    · simp at h
    · exact scalar_plain items _ _ h

end

theorem keyValue_proper (depth : Nat) (cs rest : List Char) (path : List String) (v : Value)
    (h : keyValue (value depth) cs = some ((path, v), rest)) :
    (Expression.entry path v).IsProper := by
  unfold keyValue at h
  split at h
  · rename_i hkey
    obtain ⟨⟨w, later⟩, hvalue, hp⟩ := Option.map_eq_some_iff.1 h
    obtain ⟨hentry, -⟩ := Prod.mk.inj hp
    obtain ⟨rfl, rfl⟩ := Prod.mk.inj hentry
    refine ⟨keyParts_ne_nil _ _ _ _ hkey, ?_⟩
    rintro items rfl
    exact value_plain items depth _ later hvalue
  · cases h

theorem expression_proper (cs rest : List Char) (e : Expression)
    (h : expression cs = some (e, rest)) : e.IsProper := by
  unfold expression at h
  split at h
  · split at h
    · rename_i hkey
      obtain ⟨r, -, hr⟩ := Option.map_eq_some_iff.1 h
      exact (Prod.mk.inj hr).1 ▸ keyParts_ne_nil _ _ _ _ hkey
    · cases h
  · split at h
    · rename_i hkey
      obtain ⟨r, -, hr⟩ := Option.map_eq_some_iff.1 h
      exact (Prod.mk.inj hr).1 ▸ keyParts_ne_nil _ _ _ _ hkey
    · cases h
  · split at h
    · rename_i hentry
      obtain ⟨r, -, hr⟩ := Option.map_eq_some_iff.1 h
      exact (Prod.mk.inj hr).1 ▸ keyValue_proper _ _ _ _ _ hentry
    · cases h

theorem expressions_proper (n : Nat) (cs : List Char) (es : List Expression)
    (h : expressions n cs = some es) : ∀ e ∈ es, e.IsProper := by
  induction n generalizing cs es with
  | zero => cases h
  | succ n ih =>
    rw [expressions] at h
    split at h
    · obtain rfl := Option.some.inj h
      simp
    · split at h
      · obtain ⟨r, -, hr⟩ := Option.bind_eq_some_iff.1 h
        exact ih r es hr
      · split at h
        · cases h
        · rename_i e r hexpression
          obtain ⟨later, hlater, rfl⟩ := Option.map_eq_some_iff.1 h
          exact List.forall_mem_cons.2 ⟨expression_proper _ _ _ hexpression, ih r later hlater⟩

inductive Stands (d : Draft) : Option (List String) → Prop
  | below : (∀ name, d.current = [] ∨ d.current = [name] → ¬Lists d.root name) →
      Stands d (some d.current)
  | within : d.current ≠ [] → (∀ name, d.current = [name] → Lists d.root name) → Stands d none

theorem dropLast_last (key : List String) (h : key ≠ []) :
    key.dropLast ++ [key.getLastD ""] = key := by
  rw [List.getLastD_eq_getLast?, List.getLast?_eq_some_getLast h, Option.getD_some,
    List.dropLast_concat_getLast]

/-- What an entry adds behind its key. -/
theorem added_split {key : List String} {w v : Value} {es : Entries} {path : List String}
    (hkey : key ≠ []) (h : Through (Added (key.getLastD "") w) key.dropLast es path v) :
    ∃ rest, path = key ++ rest ∧ inside rest w = some v := by
  obtain ⟨last, inner, rfl, rest, rfl, hinside⟩ := through_split _ _ _ _ h
  refine ⟨rest, ?_, hinside⟩
  conv => rhs; rw [← dropLast_last key hkey]
  simp

/-- An entry says what it says at its place, if that is at most two names deep. -/
theorem entry_says (d d' : Draft) (current : Option (List String)) (key : List String) (w : Value)
    (hs : Stands d current) (hproper : (Expression.entry key w).IsProper)
    (h : d.add (.entry key w) = some d') :
    Stands d' current ∧ ∀ path v, IsLeaf v → path.length ≤ 2 →
      (valueAt d'.root path = some v ↔ valueAt d.root path = some v ∨
        ∃ front ∈ current, ∃ rest, path = front ++ key ++ rest ∧ inside rest w = some v) := by
  obtain ⟨root, hroot, rfl⟩ := Option.map_eq_some_iff.1 h
  obtain ⟨hkey, hw⟩ := hproper
  have hlists : ∀ name, Lists root name ↔ Lists d.root name := by
    refine update_lists (fun origin es es' hchange => ?_) _ _ _ _ hroot
    refine update_lists (fun origin es es' hinsert => ?_) _ _ _ _ hchange
    obtain ⟨-, hinsert⟩ := Option.ite_none_right_eq_some.1 hinsert
    exact insertNew_lists es es' _ w hw hinsert
  have hgrown := update_grown (addValue_grown key w) _ _ _ _ hroot
  cases hs with
  | below hfree =>
    refine ⟨.below fun name hname => (not_congr (hlists name)).2 (hfree name hname), ?_⟩
    intro path v hv hlength
    rw [hgrown path v hv]
    refine or_congr_right ⟨fun hthrough => ?_, ?_⟩
    · obtain ⟨rest, inner, rfl, hadded⟩ := through_split _ _ _ _ hthrough
      obtain ⟨rest, rfl, hinside⟩ := added_split hkey hadded
      exact ⟨_, rfl, rest, by simp, hinside⟩
    · rintro ⟨front, hfront, rest, rfl, hinside⟩
      obtain rfl := Option.some.inj hfront
      simp only [List.length_append] at hlength
      cases hcurrent : d.current with
      | nil =>
        match key with
        | [k] => exact ⟨rest, rfl, hinside⟩
        | [k, l] =>
          have hrest : rest.length = 0 := by
            simp only [List.length_cons, List.length_nil] at hlength
            omega
          obtain rfl := List.length_eq_zero_iff.1 hrest
          exact through_free (hfree k (Or.inl hcurrent)) fun _ => ⟨[], rfl, hinside⟩
        | k :: l :: m :: key =>
          simp only [List.length_cons] at hlength
          omega
      | cons name front =>
        rw [hcurrent] at hlength
        match front, key with
        | [], [k] =>
          have hrest : rest.length = 0 := by
            simp only [List.length_cons, List.length_nil] at hlength
            omega
          obtain rfl := List.length_eq_zero_iff.1 hrest
          exact through_free (hfree name (Or.inr hcurrent)) fun _ => ⟨[], rfl, hinside⟩
        | [], k :: l :: key =>
          simp only [List.length_cons, List.length_nil] at hlength
          omega
        | m :: front, k :: key =>
          simp only [List.length_cons] at hlength
          omega
  | within hne hlist =>
    refine ⟨.within hne fun name hname => (hlists name).2 (hlist name hname), ?_⟩
    intro path v hv hlength
    rw [hgrown path v hv]
    refine or_congr_right ⟨fun hthrough => ?_, fun hnone => ?_⟩
    · obtain ⟨rest, inner, rfl, hadded⟩ := through_split _ _ _ _ hthrough
      obtain ⟨rest, rfl, hinside⟩ := added_split hkey hadded
      have hcurrent := List.length_pos_iff.2 hne
      have hnames := List.length_pos_iff.2 hkey
      simp only [List.length_append] at hlength
      obtain ⟨name, hname⟩ := List.length_eq_one_iff.1 (show d.current.length = 1 by omega)
      obtain ⟨items, hitems⟩ := hlist name hname
      rw [hname] at hthrough
      obtain ⟨later, -, hseen⟩ := hthrough
      rw [hitems] at hseen
      exact hseen.elim
    · simp at hnone

/-- A header says nothing by itself. -/
theorem opened_same {change : Origin → Entries → Option Entries} {front : List String}
    {es es' : Entries}
    (hchange : ∀ origin es es', change origin es = some es' → Grown (Nothing es) es es')
    (h : update .headerPath change front .header es = some es') (path : List String) (v : Value)
    (hv : IsLeaf v) : valueAt es' path = some v ↔ valueAt es path = some v := by
  rw [update_grown hchange _ _ _ _ h path v hv]
  exact or_iff_left (through_nothing _ _ _ _)

theorem singleton_of_dropLast (path : List String) (name : String) (h : path = [name]) :
    path.dropLast = [] ∧ path.getLastD "" = name := by
  subst h
  exact ⟨rfl, rfl⟩

theorem header_stands (d d' : Draft) (path : List String) (hpath : path ≠ [])
    (h : d.add (.header path) = some d') : Stands d' (some path) ∧
      ∀ path v, IsLeaf v → (valueAt d'.root path = some v ↔ valueAt d.root path = some v) := by
  obtain ⟨root, hroot, rfl⟩ := Option.map_eq_some_iff.1 h
  refine ⟨.below fun name hname => ?_, opened_same (fun _ es es' => openTable_grown es es' _) hroot⟩
  rcases hname with hname | hname
  · exact absurd hname hpath
  · obtain ⟨hfront, hlast⟩ := singleton_of_dropLast path name hname
    rw [hfront, hlast] at hroot
    exact openTable_closed _ _ _ hroot

theorem element_stands (d d' : Draft) (path : List String) (hpath : path ≠ [])
    (h : d.add (.element path) = some d') : Stands d' none ∧
      ∀ path v, IsLeaf v → (valueAt d'.root path = some v ↔ valueAt d.root path = some v) := by
  obtain ⟨root, hroot, rfl⟩ := Option.map_eq_some_iff.1 h
  refine ⟨.within hpath fun name hname => ?_,
    opened_same (fun _ es es' => openElement_grown es es' _) hroot⟩
  obtain ⟨hfront, hlast⟩ := singleton_of_dropLast path name hname
  rw [hfront, hlast] at hroot
  exact openElement_lists _ _ _ hroot

/-- Reading on adds what the entries say at their places. -/
theorem values_after_run (es : List Expression) (hproper : ∀ e ∈ es, e.IsProper) (d d' : Draft)
    (current : Option (List String)) (hs : Stands d current)
    (h : es.foldlM Draft.add d = some d') (path : List String) (v : Value) (hv : IsLeaf v)
    (hlength : path.length ≤ 2) :
    valueAt d'.root path = some v ↔ valueAt d.root path = some v ∨
      ∃ entry ∈ placed current es, ∃ rest, path = entry.1 ++ rest ∧ inside rest entry.2 = some v := by
  induction es generalizing d current with
  | nil =>
    obtain rfl := Option.some.inj h
    simp [placed]
  | cons e es ih =>
    rw [List.forall_mem_cons] at hproper
    rw [List.foldlM_cons] at h
    obtain ⟨next, hnext, hrest⟩ := Option.bind_eq_some_iff.1 h
    cases e with
    | entry key w =>
      obtain ⟨hstands, hsays⟩ := entry_says d next current key w hs hproper.1 hnext
      rw [ih hproper.2 next current hstands hrest, hsays path v hv hlength, or_assoc]
      refine or_congr_right ?_
      simp only [placed, List.mem_append, or_and_right, exists_or]
      refine or_congr_left ?_
      cases current <;> simp
    | header front =>
      obtain ⟨hstands, hsame⟩ := header_stands d next front hproper.1 hnext
      rw [ih hproper.2 next _ hstands hrest, hsame path v hv]
      rfl
    | element front =>
      obtain ⟨hstands, hsame⟩ := element_stands d next front hproper.1 hnext
      rw [ih hproper.2 next _ hstands hrest, hsame path v hv]
      rfl

def expressionsOf? (text : String) : Option (List Expression) :=
  expressions ((dropByteOrderMark text.toList).length + 1) (dropByteOrderMark text.toList)

theorem parse_expressions (text : String) : parse text = (expressionsOf? text).bind build := rfl

/-- The table of a document holds a value in a section, or in its place, exactly
if an entry says so. -/
theorem document_says (text : String) (es : List Expression) (document : Entries)
    (hes : expressionsOf? text = some es) (hdocument : parse text = some document)
    (path : List String) (v : Value) (hv : IsLeaf v) (hlength : path.length ≤ 2) :
    valueAt document path = some v ↔ Says es path v := by
  rw [parse_expressions, hes, Option.bind_some] at hdocument
  obtain ⟨d, hd, rfl⟩ := Option.map_eq_some_iff.1 hdocument
  have hproper := expressions_proper _ _ es hes
  have hs : Stands {} (some []) := .below fun name _ => by simp [Lists]
  rw [values_after_run es hproper {} d (some []) hs hd path v hv hlength]
  exact or_iff_right (valueAt_nil hv path)

end ImageTools.Toml
