import HidGate.Text.Hex

/-!
# Numbers in a TOML document

Integers in four bases and decimal fractions. An underscore may stand between two digits. Integers are those
of 64 bits; a fraction is refused if it is positive and rounds to infinity in double precision.
-/

namespace HidGate.Toml

/-- A decimal fraction as it is written: `digits` times ten to the power `exponent`, or a special value. -/
inductive Fraction
  | finite (negative : Bool) (digits : Nat) (exponent : Int)
  | infinite (negative : Bool)
  | nan
  deriving DecidableEq, Repr

namespace Number

def digit? (base : Nat) (c : Char) : Option Nat := (Hex.value? c).filter (· < base)

def moreDigits (base : Nat) : List Char → List Nat × List Char
  | '_' :: c :: r =>
    match digit? base c with
    | some d => let (ds, rest) := moreDigits base r; (d :: ds, rest)
    | none => ([], '_' :: c :: r)
  | c :: r =>
    match digit? base c with
    | some d => let (ds, rest) := moreDigits base r; (d :: ds, rest)
    | none => ([], c :: r)
  | [] => ([], [])

def digits (base : Nat) : List Char → Option (List Nat × List Char)
  | c :: r => (digit? base c).map fun d => let (ds, rest) := moreDigits base r; (d :: ds, rest)
  | [] => none

def value (base : Nat) (ds : List Nat) : Nat := ds.foldl (fun n d => n * base + d) 0

def sign : List Char → Bool × List Char
  | '-' :: r => (true, r)
  | '+' :: r => (false, r)
  | s => (false, s)

/-- Digits of which the first is zero only if it is the only one. -/
def decimal : List Char → Option (List Nat × List Char)
  | '0' :: r => some ([0], r)
  | s => digits 10 s

def inRange (n : Int) : Option Int := if -0x8000000000000000 ≤ n ∧ n < 0x8000000000000000 then some n else none

def signed (negative : Bool) (n : Nat) : Int := if negative then -(n : Int) else n

def based (base : Nat) (s : List Char) : Option (Int × List Char) := do
  let (ds, rest) ← digits base s
  let n ← inRange (value base ds)
  return (n, rest)

def integer : List Char → Option (Int × List Char)
  | '0' :: 'x' :: r => based 16 r
  | '0' :: 'o' :: r => based 8 r
  | '0' :: 'b' :: r => based 2 r
  | s => do
    let (negative, r) := sign s
    let (ds, rest) ← decimal r
    let n ← inRange (signed negative (value 10 ds))
    return (n, rest)

/-- The least value that double precision rounds to infinity. -/
def roundsToInfinity : Nat := Nat.pow 2 1024 - Nat.pow 2 970

/-- The decimal value reaches that bound. Its order of magnitude settles all but a narrow band, so that no
large power is formed. -/
def tooLarge (n : Nat) (exponent : Int) : Bool :=
  if n = 0 then false
  else
    let magnitude : Int := (toString n).length + exponent
    if magnitude < 305 then false
    else if 315 < magnitude then true
    else if 0 ≤ exponent then roundsToInfinity ≤ n * Nat.pow 10 exponent.toNat
    else roundsToInfinity * Nat.pow 10 (-exponent).toNat ≤ n

def exponent : List Char → Option (Int × List Char)
  | c :: r =>
    if c = 'e' ∨ c = 'E' then do
      let (negative, r) := sign r
      let (ds, rest) ← digits 10 r
      return (signed negative (value 10 ds), rest)
    else none
  | [] => none

def finite (s : List Char) : Option (Fraction × List Char) := do
  let (negative, r) := sign s
  let (whole, r) ← decimal r
  let (ds, places, e, rest) ← match r with
    | '.' :: r => do
      let (part, r) ← digits 10 r
      match exponent r with
      | some (e, rest) => some (whole ++ part, part.length, e, rest)
      | none => some (whole ++ part, part.length, 0, r)
    | r => do
      let (e, rest) ← exponent r
      some (whole, 0, e, rest)
  let n := value 10 ds
  let e := e - places
  if !negative && tooLarge n e then none else return (.finite negative n e, rest)

def special (s : List Char) : Option (Fraction × List Char) :=
  let (negative, r) := sign s
  match r with
  | 'i' :: 'n' :: 'f' :: rest => some (.infinite negative, rest)
  | 'n' :: 'a' :: 'n' :: rest => some (.nan, rest)
  | _ => none

def fraction (s : List Char) : Option (Fraction × List Char) :=
  match finite s with
  | some x => some x
  | none => special s

end Number

end HidGate.Toml
