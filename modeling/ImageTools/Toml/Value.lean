/-!
# Values of a configuration document

A document is a table of named values. How a table came to be decides what
may still be added to it, so every table carries its origin. Numbers that
are not whole, and dates and times, are kept as they were written.
-/

set_option autoImplicit false

namespace ImageTools.Toml

inductive Origin
  /-- By a header of its own, or as the document itself. -/
  | header
  /-- On the way to the table of a longer header. -/
  | implied
  /-- By a dotted key. -/
  | dotted
  /-- Between braces: complete where it stands. -/
  | closed
  deriving DecidableEq, Repr

inductive Value
  | string (text : String)
  | integer (number : Int)
  | float (text : String)
  | boolean (value : Bool)
  /-- A date, a time or both. -/
  | moment (text : String)
  | array (items : List Value)
  | table (origin : Origin) (entries : List (String × Value))
  /-- Tables listed by repeated headers, in order. -/
  | tables (items : List (List (String × Value)))
  deriving Repr

abbrev Entries := List (String × Value)

namespace Entries

def replace : Entries → String → Value → Entries
  | [], _, _ => []
  | (k, v) :: r, key, value =>
    if k = key then (k, value) :: r else (k, v) :: replace r key value

theorem lookup_replace_self (es : Entries) (key : String) (old new : Value)
    (h : es.lookup key = some old) : (replace es key new).lookup key = some new := by
  induction es with
  | nil => simp at h
  | cons e r ih =>
    obtain ⟨k, v⟩ := e
    by_cases hk : k = key
    · subst hk; simp [replace]
    · have hne : (key == k) = false := by simp [Ne.symm hk]
      simp only [List.lookup_cons, hne] at h
      simp [replace, hk, List.lookup_cons, hne, ih h]

theorem lookup_replace_ne (es : Entries) (key other : String) (new : Value) (h : other ≠ key) :
    (replace es key new).lookup other = es.lookup other := by
  induction es with
  | nil => rfl
  | cons e r ih =>
    obtain ⟨k, v⟩ := e
    by_cases hk : k = key
    · subst hk
      have hne : (other == k) = false := by simp [h]
      simp [replace, List.lookup_cons, hne]
    · simp [replace, hk, List.lookup_cons, ih]

theorem lookup_append_new (es : Entries) (key other : String) (new : Value)
    (h : es.lookup key = none) :
    (es ++ [(key, new)]).lookup other = if other = key then some new else es.lookup other := by
  induction es with
  | nil =>
    by_cases ho : other = key
    · simp [ho]
    · have hn : (other == key) = false := by simp [ho]
      simp [List.lookup_cons, hn, ho]
  | cons e r ih =>
    obtain ⟨k, v⟩ := e
    by_cases hk : key = k
    · simp [hk] at h
    · have hne : (key == k) = false := by simp [hk]
      simp only [List.lookup_cons, hne] at h
      by_cases ho : other = k
      · subst ho; simp [Ne.symm hk]
      · have hn : (other == k) = false := by simp [ho]
        simp [List.lookup_cons, hn, ih h]

end Entries

end ImageTools.Toml
