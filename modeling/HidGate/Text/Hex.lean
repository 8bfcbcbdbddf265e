/-!
# Hexadecimal text

Digits in either case, numbers of a fixed width, and the ways in which bytes are shown: pairs with a given
separator, and the bracketed list of a trace line.
-/

namespace HidGate.Hex

inductive Case
  | lower
  | upper
  deriving DecidableEq, Repr

def Case.digit (c : Case) (n : Nat) : Char :=
  if n < 10 then Char.ofNat (48 + n)
  else match c with
    | .lower => Char.ofNat (87 + n)
    | .upper => Char.ofNat (55 + n)

def value? (c : Char) : Option Nat :=
  if '0' ≤ c ∧ c ≤ '9' then some (c.toNat - 48)
  else if 'a' ≤ c ∧ c ≤ 'f' then some (c.toNat - 87)
  else if 'A' ≤ c ∧ c ≤ 'F' then some (c.toNat - 55)
  else none

/-- The last `width` digits of `n`, most significant first. -/
def fixed (c : Case) : Nat → Nat → List Char
  | 0, _ => []
  | width + 1, n => fixed c width (n / 16) ++ [c.digit (n % 16)]

def byte (c : Case) (b : UInt8) : List Char := fixed c 2 b.toNat

def joined (c : Case) (gap : List Char) (bs : List UInt8) : List Char :=
  gap.intercalate (bs.map (byte c))

def plain (bs : List UInt8) : String := String.ofList (joined .lower [] bs)

def spaced (bs : List UInt8) : String := String.ofList (joined .lower [' '] bs)

def listed (bs : List UInt8) : String := "[" ++ String.ofList (joined .upper [',', ' '] bs) ++ "]"

theorem length_fixed (c : Case) (width n : Nat) : (fixed c width n).length = width := by
  induction width generalizing n with
  | zero => rfl
  | succ w ih => simp [fixed, ih]

theorem value?_digit (c : Case) {n : Nat} (h : n < 16) : value? (c.digit n) = some n := by
  have : ∀ c : Case, ∀ n : Fin 16, value? (c.digit n) = some n.val := by
    intro c; cases c <;> decide
  exact this c ⟨n, h⟩

end HidGate.Hex
