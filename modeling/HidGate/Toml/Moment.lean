import HidGate.Toml.Number

/-!
# Dates and times in a TOML document

A date, a time of day, both, or both with an offset. Fields are checked against their ranges, days against
the length of the month.
-/

namespace HidGate.Toml

structure Date where
  year : Nat
  month : Nat
  day : Nat
  deriving DecidableEq, Repr

/-- A time of day; the fraction of the second is kept to nine places. -/
structure Clock where
  hour : Nat
  minute : Nat
  second : Nat
  nanosecond : Nat
  deriving DecidableEq, Repr

/-- A point in time with the parts that were written; the offset is in minutes. -/
structure Moment where
  date : Option Date
  clock : Option Clock
  offset : Option Int
  deriving DecidableEq, Repr

namespace Moment

def field : Nat → List Char → Option (Nat × List Char)
  | 0, s => some (0, s)
  | n + 1, c :: r => do
    let d ← Number.digit? 10 c
    let (rest, s) ← field n r
    return (d * Nat.pow 10 n + rest, s)
  | _ + 1, [] => none

def between (low high : Nat) (s : List Char) : Option (Nat × List Char) := do
  let (n, rest) ← field 2 s
  if low ≤ n ∧ n ≤ high then return (n, rest) else none

def skip (c : Char) : List Char → Option (List Char)
  | x :: r => if x = c then some r else none
  | [] => none

def isLeap (year : Nat) : Bool := year % 4 == 0 && (year % 100 != 0 || year % 400 == 0)

def monthLength (year month : Nat) : Nat :=
  if month = 2 then (if isLeap year then 29 else 28)
  else if month = 4 ∨ month = 6 ∨ month = 9 ∨ month = 11 then 30
  else 31

def readDate (s : List Char) : Option (Date × List Char) := do
  let (year, r) ← field 4 s
  let (month, r) ← between 1 12 (← skip '-' r)
  let (day, rest) ← between 1 31 (← skip '-' r)
  if day ≤ monthLength year month then return (⟨year, month, day⟩, rest) else none

def run : List Char → List Nat × List Char
  | c :: r =>
    match Number.digit? 10 c with
    | some d => let (ds, rest) := run r; (d :: ds, rest)
    | none => ([], c :: r)
  | [] => ([], [])

/-- The fraction of a second: digits after the ninth are cut off. -/
def nanoseconds : List Char → Nat × List Char
  | '.' :: r =>
    let (ds, rest) := run r
    if ds.isEmpty then (0, '.' :: r)
    else
      let kept := ds.take 9
      (Number.value 10 kept * Nat.pow 10 (9 - kept.length), rest)
  | s => (0, s)

def readClock (s : List Char) : Option (Clock × List Char) := do
  let (hour, r) ← between 0 23 s
  let (minute, r) ← between 0 59 (← skip ':' r)
  let (second, r) ← between 0 60 (← skip ':' r)
  let (nanosecond, rest) := nanoseconds r
  return (⟨hour, minute, second, nanosecond⟩, rest)

def readOffset : List Char → Option (Int × List Char)
  | c :: r =>
    if c = 'Z' ∨ c = 'z' then some (0, r)
    else if c = '+' ∨ c = '-' then do
      let (hour, r) ← between 0 23 r
      let (minute, rest) ← between 0 59 (← skip ':' r)
      return (Number.signed (c = '-') (hour * 60 + minute), rest)
    else none
  | [] => none

/-- A date may be followed by a time, after a `T` or a blank, and that by an offset. -/
def read (s : List Char) : Option (Moment × List Char) :=
  match readDate s with
  | some (d, r) =>
    match r with
    | c :: r' =>
      if c = 'T' ∨ c = 't' ∨ c = ' ' then
        match readClock r' with
        | some (t, r'') =>
          match readOffset r'' with
          | some (o, rest) => some (⟨some d, some t, some o⟩, rest)
          | none => some (⟨some d, some t, none⟩, r'')
        | none => some (⟨some d, none, none⟩, r)
      else some (⟨some d, none, none⟩, r)
    | [] => some (⟨some d, none, none⟩, [])
  | none => (readClock s).map fun (t, rest) => (⟨none, some t, none⟩, rest)

end Moment

end HidGate.Toml
