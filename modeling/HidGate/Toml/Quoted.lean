import HidGate.Text.Hex

/-!
# Strings in a TOML document

Four notations: basic and literal, each on one line or over several. `read` takes any of them; `write?`
chooses one for a given text. A line break is a single line feed here: the document reader has turned
carriage return and line feed into one before.
-/

namespace HidGate.Toml

def quoteMark : Char := '"'
def apostrophe : Char := '\x27'
def backslash : Char := '\\'

def isBlank (c : Char) : Bool := c == ' ' || c == '\t'

/-- May stand in a comment or, quotes aside, in a string: all but the control characters, of which the tab
is allowed. -/
def isPlain (c : Char) : Bool := c == '\t' || (0x20 ≤ c.toNat && c.toNat != 0x7f)

namespace Quoted

/-! ## Reading -/

/-- Where the reader of a basic string is. `gap` and `fold` belong to a backslash at the end of a line: up
to the line break, and over the blanks and line breaks after it. -/
inductive Mode
  | text
  | escape
  | code (left value : Nat)
  | gap
  | fold
  deriving DecidableEq, Repr

def escaped? (c : Char) : Option Char :=
  if c = 'b' then some '\x08'
  else if c = 't' then some '\t'
  else if c = 'n' then some '\n'
  else if c = 'f' then some '\x0c'
  else if c = 'r' then some '\r'
  else if c = quoteMark then some quoteMark
  else if c = backslash then some backslash
  else none

def scalar? (n : Nat) : Option Char :=
  if n < 0xd800 ∨ (0xdfff < n ∧ n < 0x110000) then some (Char.ofNat n) else none

def push (c : Char) (r : Option (List Char × List Char)) : Option (List Char × List Char) :=
  r.map fun (t, rest) => (c :: t, rest)

/-- The end of a string over several lines, after one quote of it was read. Of a longer run of quotes up to
two belong to the text: they are given with what follows the run. -/
def closing? (q : Char) (r : List Char) : Option (List Char × List Char) :=
  let n := (r.takeWhile (· == q)).length
  if n < 2 then none
  else
    let inner := min (n - 2) 2
    some (List.replicate inner q, r.drop (inner + 2))

/-- The text of a basic string after its opening quotes, and what follows the closing ones. -/
def basic (lines : Bool) : Mode → List Char → Option (List Char × List Char)
  | _, [] => none
  | .text, c :: r =>
    if c = quoteMark then
      if lines then
        match closing? quoteMark r with
        | some stop => some stop
        | none => push c (basic lines .text r)
      else some ([], r)
    else if c = backslash then basic lines .escape r
    else if isPlain c || (lines && c == '\n') then push c (basic lines .text r)
    else none
  | .escape, c :: r =>
    match escaped? c with
    | some x => push x (basic lines .text r)
    | none =>
      if c = 'u' then basic lines (.code 4 0) r
      else if c = 'U' then basic lines (.code 8 0) r
      else if lines && isBlank c then basic lines .gap r
      else if lines && c == '\n' then basic lines .fold r
      else none
  | .code left value, c :: r =>
    match Hex.value? c with
    | some d =>
      if left ≤ 1 then
        match scalar? (value * 16 + d) with
        | some x => push x (basic lines .text r)
        | none => none
      else basic lines (.code (left - 1) (value * 16 + d)) r
    | none => none
  | .gap, c :: r =>
    if isBlank c then basic lines .gap r
    else if c = '\n' then basic lines .fold r
    else none
  | .fold, c :: r =>
    if isBlank c || c == '\n' then basic lines .fold r
    else if c = quoteMark then
      match closing? quoteMark r with
      | some stop => some stop
      | none => push c (basic lines .text r)
    else if c = backslash then basic lines .escape r
    else if isPlain c then push c (basic lines .text r)
    else none

def literal (lines : Bool) : List Char → Option (List Char × List Char)
  | [] => none
  | c :: r =>
    if c = apostrophe then
      if lines then
        match closing? apostrophe r with
        | some stop => some stop
        | none => push c (literal lines r)
      else some ([], r)
    else if isPlain c || (lines && c == '\n') then push c (literal lines r)
    else none

/-- A line break right after the opening quotes is no part of the text. -/
def dropBreak : List Char → List Char
  | '\n' :: r => r
  | r => r

def readLine : List Char → Option (List Char × List Char)
  | '"' :: r => basic false .text r
  | '\x27' :: r => literal false r
  | _ => none

def read : List Char → Option (List Char × List Char)
  | '"' :: '"' :: '"' :: r => basic true .text (dropBreak r)
  | '\x27' :: '\x27' :: '\x27' :: r => literal true (dropBreak r)
  | s => readLine s

/-! ## Writing -/

inductive Style
  | basic
  | basicLines
  | literal
  | literalLines
  deriving DecidableEq, Repr

/-- The longest run of `q`, if `n` of them stand in front. -/
def runFrom (q : Char) : Nat → List Char → Nat
  | n, [] => n
  | n, c :: r => if c = q then runFrom q (n + 1) r else max n (runFrom q 0 r)

def longestRun (q : Char) (s : List Char) : Nat := runFrom q 0 s

def runBound : Nat := 255

def quotesInLines : Nat := 2

/-- The first notation that spares all escapes, with the simple ones first; or else a basic one. -/
def Style.of (s : List Char) : Style :=
  let lines := s.contains '\n'
  let literal := s.all fun c => isPlain c || c == '\n'
  let basic := literal && !s.contains backslash
  if basic && !s.contains quoteMark && !lines then .basic
  else if literal && !s.contains apostrophe && !lines then .literal
  else if basic && longestRun quoteMark s ≤ quotesInLines then .basicLines
  else if literal && longestRun apostrophe s ≤ quotesInLines then .literalLines
  else if lines then .basicLines
  else .basic

def escape (lines : Bool) (c : Char) : List Char :=
  if c = '\x08' then ['\\', 'b']
  else if c = '\t' then ['\\', 't']
  else if c = '\n' then (if lines then ['\n'] else ['\\', 'n'])
  else if c = '\x0c' then ['\\', 'f']
  else if c = '\r' then ['\\', 'r']
  else if c = backslash then ['\\', '\\']
  else if isPlain c then [c]
  else '\\' :: 'u' :: Hex.fixed .upper 4 c.toNat

/-- The inside of a basic string, after `n` quotes in a row that were not escaped. On one line all quotes are
escaped, over several lines one where two went before. -/
def escaped (lines : Bool) : Nat → List Char → List Char
  | _, [] => []
  | n, c :: r =>
    if c = quoteMark then
      if n < (if lines then quotesInLines else 0) then c :: escaped lines (n + 1) r
      else backslash :: c :: escaped lines 0 r
    else escape lines c ++ escaped lines 0 r

def triple (q : Char) : List Char := [q, q, q]

/-- A text with line breaks begins on a line of its own. -/
def opening (s : List Char) : List Char := if s.contains '\n' then ['\n'] else []

def Style.write (s : List Char) : Style → List Char
  | .basic => quoteMark :: escaped false 0 s ++ [quoteMark]
  | .basicLines => triple quoteMark ++ opening s ++ escaped true 0 s ++ triple quoteMark
  | .literal => apostrophe :: s ++ [apostrophe]
  | .literalLines => triple apostrophe ++ opening s ++ s ++ triple apostrophe

/-- The text in the notation chosen for it, unless it has a run of quotes that cannot be counted. -/
def write? (s : List Char) : Option (List Char) :=
  if longestRun quoteMark s ≤ runBound ∧ longestRun apostrophe s ≤ runBound then
    some ((Style.of s).write s)
  else none

end Quoted

end HidGate.Toml
