/-!
# Text without terminal sequences

What is left of a text when the sequences for a terminal are taken out of it, together with all control
characters but line breaks and tabs. A sequence begins with the escape character. A line break or tab within
one is kept, and what follows it is text again until the next character that is not shown; the sequence goes
on from there.
-/

namespace HidGate.Unstyled

inductive Mode
  | text
  | escape
  /-- A blank or mark after the escape character: one more character ends the sequence. -/
  | escapeMark
  | control
  | device (parameters : Bool)
  | deviceMark
  /-- Any string that a string terminator ends. -/
  | string
  /-- A string for the operating system, which a bell ends. -/
  | command
  deriving DecidableEq, Repr

def isWide (c : Char) : Bool := 0x80 ≤ c.toNat

def isSpacing (c : Char) : Bool := c == '\t' || c == '\n' || c == '\x0c' || c == '\r'

def isShown (c : Char) : Bool := isSpacing c || (0x20 ≤ c.toNat && c.toNat != 0x7f)

def isMark (c : Char) : Bool := 0x20 ≤ c.toNat && c.toNat ≤ 0x2f

def isParameter (c : Char) : Bool := 0x30 ≤ c.toNat && c.toNat ≤ 0x3f

def isFinal (c : Char) : Bool := 0x40 ≤ c.toNat && c.toNat ≤ 0x7e

/-- The string terminator in one byte, wherever it stands in a character's code. -/
def hasTerminator (c : Char) : Bool := (String.utf8EncodeChar c).contains 0x9c

def Mode.keeps (c : Char) : Mode → Bool
  | .text => isShown c
  | .escape | .escapeMark | .control => isSpacing c
  | _ => false

def Mode.next (c : Char) (m : Mode) : Mode :=
  if c = '\x1b' then .escape
  else if c = '\x18' ∨ c = '\x1a' then .text
  else match m with
    | .text => .text
    | .escape =>
      if c = 'P' then .device false
      else if c = '[' then .control
      else if c = ']' then .command
      else if c = 'X' ∨ c = '^' ∨ c = '_' then .string
      else if isMark c then .escapeMark
      else if isParameter c || isFinal c then .text
      else .escape
    | .escapeMark => if isParameter c || isFinal c then .text else .escapeMark
    | .control => if isFinal c then .text else .control
    | .device parameters =>
      if isMark c then .deviceMark
      else if isFinal c || (parameters && '<' ≤ c && c ≤ '?') then .string
      else .device (parameters || isParameter c)
    | .deviceMark => if isParameter c || isFinal c then .string else .deviceMark
    | .string => if hasTerminator c then .text else .string
    | .command => if c = '\x07' then .text else .command

/-- The characters kept. `on` says that the one before was. -/
def keepFrom : Mode → Bool → List Char → List Char
  | _, _, [] => []
  | m, on, c :: r =>
    if (on && isShown c) || m.keeps c then c :: keepFrom (if isWide c then .text else m) true r
    else keepFrom (m.next c) false r

def keep (s : List Char) : List Char := keepFrom .text false s

end HidGate.Unstyled
