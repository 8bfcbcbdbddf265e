import HidGate.Text.Hex

/-!
# Bytes on a command line

A byte is given in hexadecimal digits of either case, with any number of zeros in front. The fronts `0x`, then
`0X`, are taken off as often as they stand there, and one plus sign may follow.
-/

namespace HidGate.HexByte

inductive Flaw
  | empty
  | badDigit
  | tooLarge
  deriving DecidableEq, Repr

def Flaw.text : Flaw → String
  | .empty => "cannot parse integer from empty string"
  | .badDigit => "invalid digit found in string"
  | .tooLarge => "number too large to fit in target type"

/-- Takes off a zero and the mark after it, as often as they stand in front. -/
def dropFronts (mark : Char) : List Char → List Char
  | '0' :: c :: r => if c = mark then dropFronts mark r else '0' :: c :: r
  | s => s

def digits (s : List Char) : List Char := dropFronts 'X' (dropFronts 'x' s)

/-- The number that goes on from `n` with these digits. A digit is looked at before it is found that there is
no room for it. -/
def extend : Nat → List Char → Except Flaw Nat
  | n, [] => .ok n
  | n, c :: r =>
    match Hex.value? c with
    | none => .error .badDigit
    | some d => if 256 ≤ n * 16 then .error .tooLarge else extend (n * 16 + d) r

def number (s : List Char) : Except Flaw Nat :=
  match digits s with
  | [] => .error .empty
  | '+' :: c :: r => extend 0 (c :: r)
  | r => extend 0 r

def read (s : List Char) : Except Flaw UInt8 := (number s).map UInt8.ofNat

end HidGate.HexByte
