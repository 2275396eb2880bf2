/-!
# Paths as text

A path is a string of names separated by slashes, kept exactly as it was
written. `join` puts a name below a directory, `pop?` takes the last name
off, and `ancestors` is the chain of directories that repeated `pop?` visits.
Nothing here looks at a file system: links are followed elsewhere.
-/

set_option autoImplicit false

namespace ImageTools.Path

def pieces : List Char → List (List Char)
  | [] => [[]]
  | c :: r =>
    if c = '/' then [] :: pieces r
    else match pieces r with
      | [] => [[c]]
      | p :: ps => (c :: p) :: ps

def unite : List (List Char) → List Char
  | [] => []
  | [p] => p
  | p :: q :: ps => p ++ '/' :: unite (q :: ps)

theorem pieces_ne_nil (cs : List Char) : pieces cs ≠ [] := by
  cases cs with
  | nil => simp [pieces]
  | cons c r =>
    by_cases h : c = '/'
    · simp [pieces, h]
    · cases hp : pieces r <;> simp [pieces, h, hp]

theorem unite_pieces (cs : List Char) : unite (pieces cs) = cs := by
  induction cs with
  | nil => rfl
  | cons c r ih =>
    by_cases h : c = '/'
    · cases hp : pieces r with
      | nil => exact absurd hp (pieces_ne_nil r)
      | cons p ps => simp [pieces, h, unite, hp, hp ▸ ih]
    · cases hp : pieces r with
      | nil => exact absurd hp (pieces_ne_nil r)
      | cons p ps =>
        rw [hp] at ih
        cases ps <;> simp_all [pieces, unite]

def names (path : String) : List String :=
  (pieces path.toList).map String.ofList

def isAbsolute (path : String) : Bool :=
  path.toList.head? == some '/'

/-- `name` below `base`: an absolute name stands alone, and a slash is
written between the two unless `base` is empty or already ends in one. -/
def join (base name : String) : String :=
  if isAbsolute name then name
  else if base = "" ∨ base.toList.getLast? = some '/' then base ++ name
  else base ++ "/" ++ name

def dropSlash (path : String) : String :=
  if path.toList.getLast? = some '/' then String.ofList path.toList.dropLast else path

/-- The start that is never cut off (the root, or the dot of a path that
begins with `./`), and the text after it. -/
def anchor : List Char → List Char × List Char
  | '/' :: r => (['/'], r)
  | ['.'] => (['.'], [])
  | '.' :: '/' :: r => (['.'], '/' :: r)
  | cs => ([], cs)

def idle (piece : List Char) : Bool :=
  piece == [] || piece == ['.']

/-- The path without its last name; none for the root and for the empty
path. Idle pieces do not count as names, except a leading dot. -/
def pop? (path : String) : Option String :=
  match (pieces (anchor path.toList).2).reverse.dropWhile idle with
  | [] => if (anchor path.toList).1 = ['.'] then some "" else none
  | _ :: r =>
    some (String.ofList ((anchor path.toList).1 ++ unite (r.dropWhile idle).reverse))

theorem anchor_append (cs : List Char) : (anchor cs).1 ++ (anchor cs).2 = cs := by
  unfold anchor; split <;> simp

def weight : List (List Char) → Nat
  | [] => 0
  | p :: ps => p.length + 1 + weight ps

theorem length_unite_le (ps : List (List Char)) : (unite ps).length ≤ weight ps - 1 := by
  fun_induction unite ps with
  | case1 => exact Nat.zero_le _
  | case2 p => simp only [weight]; omega
  | case3 p q ps ih =>
    simp only [weight, List.length_append, List.length_cons] at *
    omega

theorem weight_pieces (cs : List Char) : weight (pieces cs) = cs.length + 1 := by
  induction cs with
  | nil => rfl
  | cons c r ih =>
    by_cases h : c = '/'
    · simp only [weight, pieces, h, if_true, List.length_cons, List.length_nil] at *
      omega
    · cases hp : pieces r with
      | nil => exact absurd hp (pieces_ne_nil r)
      | cons p ps =>
        simp only [weight, pieces, h, if_false, hp, List.length_cons] at *
        omega

theorem weight_append (ps qs : List (List Char)) : weight (ps ++ qs) = weight ps + weight qs := by
  induction ps with
  | nil => simp only [List.nil_append, weight, Nat.zero_add]
  | cons p ps ih => simp only [List.cons_append, weight, ih]; omega

theorem weight_reverse (ps : List (List Char)) : weight ps.reverse = weight ps := by
  induction ps with
  | nil => rfl
  | cons p ps ih => simp only [List.reverse_cons, weight_append, weight, ih]; omega

theorem weight_dropWhile_le (p : List Char → Bool) (ps : List (List Char)) :
    weight (ps.dropWhile p) ≤ weight ps := by
  induction ps with
  | nil => exact Nat.le_refl _
  | cons q ps ih =>
    by_cases h : p q = true
    · simp only [List.dropWhile_cons, h, if_true]
      exact Nat.le_trans ih (Nat.le_add_left _ _)
    · simp only [List.dropWhile_cons, h]
      exact Nat.le_refl _

theorem head_not_idle (ps : List (List Char)) (q : List Char) (r : List (List Char))
    (h : ps.dropWhile idle = q :: r) : idle q = false := by
  induction ps with
  | nil => simp at h
  | cons p ps ih =>
    by_cases hp : idle p = true
    · simp only [List.dropWhile_cons, hp, if_true] at h; exact ih h
    · simp only [List.dropWhile_cons, hp] at h
      simp only [Bool.false_eq_true, if_false, List.cons.injEq] at h
      simpa [h.1] using hp

/-- Taking the last name off makes a path shorter. -/
theorem length_pop?_lt (path rest : String) (h : pop? path = some rest) :
    rest.length < path.length := by
  have hc := anchor_append path.toList
  have hl : path.length = (anchor path.toList).1.length + (anchor path.toList).2.length := by
    rw [← String.length_toList, ← List.length_append, hc]
  unfold pop? at h
  split at h
  · split at h
    · rename_i hd
      simp only [Option.some.injEq] at h
      rw [hl, hd, ← h]
      simp only [String.length_empty, List.length_cons, List.length_nil]
      omega
    · simp at h
  · rename_i q r hq
    simp only [Option.some.injEq] at h
    have h1 := weight_dropWhile_le idle (pieces (anchor path.toList).2).reverse
    rw [hq, weight_reverse, weight_pieces] at h1
    have h2 := weight_dropWhile_le idle r
    have h3 := length_unite_le (r.dropWhile idle).reverse
    rw [weight_reverse] at h3
    have h4 : 0 < q.length := by
      have := head_not_idle _ q r hq
      cases q with
      | nil => simp [idle] at this
      | cons _ _ => simp
    simp only [weight] at h1
    rw [← h, hl]
    simp only [String.length_ofList, List.length_append]
    omega

def ancestors (path : String) : List String :=
  match _h : pop? path with
  | none => [path]
  | some rest => path :: ancestors rest
termination_by path.length
decreasing_by exact length_pop?_lt path rest _h

end ImageTools.Path
