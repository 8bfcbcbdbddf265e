import HidGate.Toml.Moment

/-!
# Values and tables of a TOML document

A table remembers how it came about, since that decides what may still be added to it. `define`, `openTable`
and `openElement` are the three ways in which a document grows; each has no result where the document would
define something twice or turn a value into a table.
-/

namespace HidGate.Toml

inductive Origin
  /-- A header of its own, or the document itself. -/
  | header
  /-- The front part of a longer header. -/
  | implied
  /-- The front part of a dotted key. -/
  | dotted
  /-- Written in braces, and complete. -/
  | braces
  deriving DecidableEq, Repr

inductive Value
  | string (s : String)
  | integer (n : Int)
  | fraction (x : Fraction)
  | boolean (b : Bool)
  | moment (m : Moment)
  | array (items : List Value)
  | table (origin : Origin) (entries : List (String × Value))
  | elements (tables : List (List (String × Value)))

abbrev Table := List (String × Value)

namespace Table

def put (t : Table) (k : String) (v : Value) : Table :=
  match t with
  | [] => [(k, v)]
  | (k', v') :: rest => if k' = k then (k, v) :: rest else (k', v') :: put rest k v

def mapLast (f : Table → Option Table) : List Table → Option (List Table)
  | [] => none
  | [t] => (f t).map ([·])
  | t :: ts => (mapLast f ts).map (t :: ·)

/-- Applies `f` to the table that a header path leads to. What is not there yet is implied. -/
def within (f : Table → Option Table) : List String → Table → Option Table
  | [], t => f t
  | k :: ks, t =>
    match t.lookup k with
    | none => (within f ks []).map fun sub => put t k (.table .implied sub)
    | some (.table .braces _) => none
    | some (.table origin sub) => (within f ks sub).map fun sub => put t k (.table origin sub)
    | some (.elements ts) => (mapLast (within f ks) ts).map fun ts => put t k (.elements ts)
    | some _ => none

/-- Defines the value of a dotted key, given as a path and a last part. Tables on the way are those of other
dotted keys; `direct` says that the last part may stand in this very table. -/
def insert (k : String) (v : Value) (direct : Bool) : List String → Table → Option Table
  | [], t => if direct && (t.lookup k).isNone then some (put t k v) else none
  | p :: ps, t =>
    match t.lookup p with
    | none => (insert k v true ps []).map fun sub => put t p (.table .dotted sub)
    | some (.table .dotted sub) =>
      (insert k v true ps sub).map fun sub => put t p (.table .dotted sub)
    | some (.table .implied sub) =>
      (insert k v false ps sub).map fun sub => put t p (.table .implied sub)
    | some (.elements ts) =>
      (mapLast (insert k v false ps) ts).map fun ts => put t p (.elements ts)
    | some _ => none

def define (header path : List String) (k : String) (v : Value) (t : Table) : Option Table :=
  within (insert k v true path) header t

/-- A header in brackets: a new table, or one that was only implied so far. -/
def openTable (path : List String) (k : String) (t : Table) : Option Table :=
  within (fun t =>
    match t.lookup k with
    | none => some (put t k (.table .header []))
    | some (.table .implied sub) => some (put t k (.table .header sub))
    | some _ => none) path t

def openElement (path : List String) (k : String) (t : Table) : Option Table :=
  within (fun t =>
    match t.lookup k with
    | none => some (put t k (.elements [[]]))
    | some (.elements ts) => some (put t k (.elements (ts ++ [[]])))
    | some _ => none) path t

end Table

end HidGate.Toml
