import HidGate.Toml.Quoted
import HidGate.Toml.Table

/-!
# TOML documents

A document is read line by line into its top-level table. Brackets and braces may be nested 79 deep, and a
dotted key has at most 79 parts. `parse` has a result for exactly the well-formed documents.
-/

namespace HidGate.Toml

abbrev Reader (α : Type) := List Char → Option (α × List Char)

namespace Document

/-! ## Blanks and comments -/

def skipBlanks : List Char → List Char
  | c :: r => if isBlank c then skipBlanks r else c :: r
  | [] => []

/-- The rest after a comment: at the line break or the end. A comment holds no control character. -/
def comment : List Char → Option (List Char)
  | [] => some []
  | c :: r => if c = '\n' then some (c :: r) else if isPlain c then comment r else none

def endOfLine (s : List Char) : Option (List Char) := do
  let rest ← match skipBlanks s with
    | '#' :: r => comment r
    | r => some r
  match rest with
  | [] => some []
  | '\n' :: r => some r
  | _ => none

/-- Skips blanks, line breaks and comments, as they stand between the items of an array. `inside` says that a
comment has begun. -/
def skipSpace (inside : Bool) : List Char → Option (List Char)
  | [] => some []
  | c :: r =>
    if c = '\n' then skipSpace false r
    else if inside then (if isPlain c then skipSpace true r else none)
    else if isBlank c then skipSpace false r
    else if c = '#' then skipSpace true r
    else some (c :: r)

/-! ## Keys -/

def isBare (c : Char) : Bool := c.isAlphanum || c == '_' || c == '-'

/-- One part of a key: a string on one line, or a run of letters, digits, underscores and dashes. -/
def part (s : List Char) : Option (String × List Char) :=
  match s with
  | [] => none
  | c :: _ =>
    if c = quoteMark ∨ c = apostrophe then
      (Quoted.readLine s).map fun (t, rest) => (String.ofList t, rest)
    else
      let word := s.takeWhile isBare
      if word.isEmpty then none else some (String.ofList word, s.dropWhile isBare)

def parts : Nat → Reader (List String)
  | 0, _ => none
  | fuel + 1, s => do
    let (p, r) ← part (skipBlanks s)
    match skipBlanks r with
    | '.' :: r => do
      let (ps, rest) ← parts fuel r
      return (p :: ps, rest)
    | rest => return ([p], rest)

/-- The greatest number of parts of a dotted key, and of brackets and braces around a value. -/
def depthLimit : Nat := 79

def key (s : List Char) : Option ((List String × String) × List Char) := do
  let (ps, rest) ← parts depthLimit s
  let last ← ps.getLast?
  return ((ps.dropLast, last), rest)

/-! ## Values -/

def items (value : Reader Value) : Nat → Reader (List Value)
  | 0, _ => none
  | fuel + 1, s => do
    match ← skipSpace false s with
    | ']' :: rest => return ([], rest)
    | r =>
      let (v, r) ← value r
      match ← skipSpace false r with
      | ',' :: r => do
        let (vs, rest) ← items value fuel r
        return (v :: vs, rest)
      | ']' :: rest => return ([v], rest)
      | _ => none

def pairs (value : Reader Value) : Nat → Table → Reader Table
  | 0, _, _ => none
  | fuel + 1, t, s => do
    let ((path, k), r) ← key s
    match r with
    | '=' :: r => do
      let (v, r) ← value (skipBlanks r)
      let t ← t.insert k v true path
      match skipBlanks r with
      | ',' :: r => pairs value fuel t r
      | '\x7d' :: rest => return (t, rest)
      | _ => none
    | _ => none

def braces (value : Reader Value) (s : List Char) : Option (Table × List Char) :=
  match skipBlanks s with
  | '\x7d' :: rest => some ([], rest)
  | _ => pairs value (s.length + 1) [] s

def startsNumber (c : Char) : Bool := c == '+' || c == '-' || c.isDigit

def scalar (s : List Char) : Option (Value × List Char) :=
  match s with
  | [] => none
  | c :: _ =>
    if c = quoteMark ∨ c = apostrophe then
      (Quoted.read s).map fun (t, rest) => (.string (String.ofList t), rest)
    else if startsNumber c then
      match Moment.read s, Number.fraction s with
      | some (m, rest), _ => some (.moment m, rest)
      | none, some (x, rest) => some (.fraction x, rest)
      | none, none => (Number.integer s).map fun (n, rest) => (.integer n, rest)
    else match s with
      | 't' :: 'r' :: 'u' :: 'e' :: rest => some (.boolean true, rest)
      | 'f' :: 'a' :: 'l' :: 's' :: 'e' :: rest => some (.boolean false, rest)
      | _ => (Number.special s).map fun (x, rest) => (.fraction x, rest)

/-- A value with at most `depth` brackets and braces around any part of it. -/
def value : Nat → Reader Value
  | 0, s => scalar s
  | depth + 1, s =>
    match s with
    | '[' :: r => (items (value depth) (r.length + 1) r).map fun (vs, rest) => (.array vs, rest)
    | '\x7b' :: r => (braces (value depth) r).map fun (t, rest) => (.table .braces t, rest)
    | _ => scalar s

/-! ## Lines -/

/-- The state between two lines: the table so far, and the path of the current header. -/
structure State where
  table : Table
  header : List String

def pairLine (st : State) (s : List Char) : Option (State × List Char) := do
  let ((path, k), r) ← key s
  match r with
  | '=' :: r => do
    let (v, r) ← value depthLimit (skipBlanks r)
    let rest ← endOfLine r
    let t ← st.table.define st.header path k v
    return (⟨t, st.header⟩, rest)
  | _ => none

def headerLine (element : Bool) (st : State) (s : List Char) : Option (State × List Char) := do
  let ((path, k), r) ← key s
  let r ← if element then
      match r with
      | ']' :: ']' :: r => some r
      | _ => none
    else
      match r with
      | ']' :: r => some r
      | _ => none
  let rest ← endOfLine r
  let t ← if element then st.table.openElement path k else st.table.openTable path k
  return (⟨t, path ++ [k]⟩, rest)

def line (st : State) (s : List Char) : Option (State × List Char) :=
  match s with
  | '[' :: '[' :: r => headerLine true st r
  | '[' :: r => headerLine false st r
  | _ => pairLine st s

def lines : Nat → State → List Char → Option Table
  | 0, _, _ => none
  | fuel + 1, st, s =>
    match skipBlanks s with
    | [] => some st.table
    | '\n' :: r => lines fuel st r
    | '#' :: r =>
      match comment r with
      | some r => lines fuel st r
      | none => none
    | r =>
      match line st r with
      | some (st, r) => lines fuel st r
      | none => none

/-- A carriage return before a line feed belongs to the line break. -/
def joinBreaks : List Char → List Char
  | '\r' :: '\n' :: r => '\n' :: joinBreaks r
  | c :: r => c :: joinBreaks r
  | [] => []

def dropMark : List Char → List Char
  | '\ufeff' :: r => r
  | s => s

def parse (s : List Char) : Option Table :=
  let s := joinBreaks (dropMark s)
  lines (s.length + 1) ⟨[], []⟩ s

end Document

end HidGate.Toml
