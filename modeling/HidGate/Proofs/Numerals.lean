import HidGate.Text.Hex
import Mathlib.Algebra.Group.Nat.Defs

/-!
# Hexadecimal numerals

The number that a text of digits stands for, in either case and with zeros in front. A number that was printed in a
fixed width is read back up to what the width has room for.
-/

namespace HidGate.Hex

def IsDigit (c : Char) : Prop := (value? c).isSome = true

instance (c : Char) : Decidable (IsDigit c) := inferInstanceAs (Decidable (_ = true))

def valueFrom (n : Nat) (ds : List Char) : Nat := ds.foldl (fun n c => n * 16 + (value? c).getD 0) n

def value (ds : List Char) : Nat := valueFrom 0 ds

section
variable {n m w : Nat} {k : Case}

theorem valueFrom_cons (n : Nat) (c : Char) (ds : List Char) :
    valueFrom n (c :: ds) = valueFrom (n * 16 + (value? c).getD 0) ds := rfl

theorem valueFrom_append (n : Nat) (ds es : List Char) : valueFrom n (ds ++ es) = valueFrom (valueFrom n ds) es := by
  unfold valueFrom
  rw [List.foldl_append]

theorem le_valueFrom (n : Nat) (ds : List Char) : n ≤ valueFrom n ds := by
  induction ds generalizing n with
  | nil => exact Nat.le_refl n
  | cons c ds ih =>
    have rest := ih (n * 16 + (value? c).getD 0)
    rw [valueFrom_cons]
    omega

theorem value_fixed (k : Case) (w n : Nat) : value (fixed k w n) = n % 16 ^ w := by
  induction w generalizing n with
  | zero => simp [fixed, value, valueFrom, Nat.mod_one]
  | succ w ih =>
    have low : n % 16 < 16 := Nat.mod_lt n (by decide)
    have high : valueFrom 0 (fixed k w (n / 16)) = n / 16 % 16 ^ w := ih (n / 16)
    rw [fixed, value, valueFrom_append, high, valueFrom_cons, value?_digit k low]
    simp only [valueFrom, List.foldl_nil, Option.getD_some]
    rw [Nat.pow_succ, Nat.mul_comm (16 ^ w) 16, Nat.mod_mul]
    omega

/-- With room for both, numbers that are printed alike are the same. -/
theorem fixed_inj (hn : n < 16 ^ w) (hm : m < 16 ^ w) : fixed k w n = fixed k w m ↔ n = m := by
  constructor
  · intro same
    have values := congrArg value same
    rwa [value_fixed, value_fixed, Nat.mod_eq_of_lt hn, Nat.mod_eq_of_lt hm] at values
  · intro same
    rw [same]

end

end HidGate.Hex
