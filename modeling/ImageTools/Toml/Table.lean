import ImageTools.Toml.Value

/-!
# Adding to tables

What a header or a key may add depends on how the tables on its way came to
be. A header may pass through any open table, a dotted key only through
tables that no header has named. Nothing is ever named twice.
-/

set_option autoImplicit false

namespace ImageTools.Toml

inductive Way
  | headerPath
  | dottedKey
  deriving DecidableEq, Repr

namespace Way

def creates : Way → Origin
  | .headerPath => .implied
  | .dottedKey => .dotted

def enters : Way → Origin → Bool
  | .headerPath, origin => origin != .closed
  | .dottedKey, origin => origin == .implied || origin == .dotted

end Way

/-- Changes the table at the end of a path, creating the tables on the way
that do not exist. In a list of tables the last one is meant. -/
def update (way : Way) (change : Origin → Entries → Option Entries) :
    List String → Origin → Entries → Option Entries
  | [], origin, es => change origin es
  | k :: path, _, es =>
    match es.lookup k with
    | none =>
      (update way change path way.creates []).map fun inner => es ++ [(k, .table way.creates inner)]
    | some (.table origin inner) =>
      if way.enters origin then
        (update way change path origin inner).map fun inner => es.replace k (.table origin inner)
      else none
    | some (.tables items) =>
      match items.getLast? with
      | none => none
      | some inner =>
        (update way change path .header inner).map fun inner =>
          es.replace k (.tables (items.dropLast ++ [inner]))
    | some _ => none

def insertNew (es : Entries) (name : String) (v : Value) : Option Entries :=
  if (es.lookup name).isSome then none else some (es ++ [(name, v)])

/-- Adds a value under a key. A dotted key ends in a table that dotted keys
alone have made. -/
def addValue (path : List String) (v : Value) (origin : Origin) (es : Entries) : Option Entries :=
  update .dottedKey
    (fun origin es =>
      if path.length = 1 ∨ origin = .dotted then insertNew es (path.getLastD "") v else none)
    path.dropLast origin es

def openTable (name : String) (es : Entries) : Option Entries :=
  match es.lookup name with
  | none => some (es ++ [(name, .table .header [])])
  | some (.table .implied inner) => some (es.replace name (.table .header inner))
  | some _ => none

def openElement (name : String) (es : Entries) : Option Entries :=
  match es.lookup name with
  | none => some (es ++ [(name, .tables [[]])])
  | some (.tables items) => some (es.replace name (.tables (items ++ [[]])))
  | some _ => none

end ImageTools.Toml
