import HidGate.Proofs.Numerals
import HidGate.Proofs.Tokens

/-!
# Which texts are bytes

A text is taken for a byte if it consists of fronts, a plus sign or none, and digits whose number is the byte's. The
fronts may be more than one: first those with a small mark, then those with a large one. So more is taken than digits
with one front or none, and this is all that is taken.
-/

namespace HidGate

theorem Hex.value?_lt {c : Char} {d : Nat} (digit : value? c = some d) : d < 16 := by
  unfold value? at digit
  have between (lo hi : Char) : lo ≤ c ∧ c ≤ hi → lo.toNat ≤ c.toNat ∧ c.toNat ≤ hi.toNat := id
  split at digit
  · rename_i range
    have bounds := between '0' '9' range
    cases digit
    simp only [Char.reduceToNat] at bounds
    omega
  · split at digit
    · rename_i range
      have bounds := between 'a' 'f' range
      cases digit
      simp only [Char.reduceToNat] at bounds
      omega
    · split at digit
      · rename_i range
        have bounds := between 'A' 'F' range
        cases digit
        simp only [Char.reduceToNat] at bounds
        omega
      · cases digit

namespace HexByte

structure Tells (v : UInt8) (ds : List Char) : Prop where
  nonempty : ds ≠ []
  digits : ∀ c ∈ ds, Hex.IsDigit c
  value : Hex.value ds = v.toNat

inductive Plain (v : UInt8) : List Char → Prop
  | bare {ds : List Char} (tells : Tells v ds) : Plain v ds
  | marked {mark : Char} {ds : List Char} (known : mark = 'x' ∨ mark = 'X') (tells : Tells v ds) :
      Plain v ('0' :: mark :: ds)

def fronts (mark : Char) (n : Nat) : List Char := (List.replicate n ['0', mark]).flatten

structure Spelling where
  small : Nat
  large : Nat
  plus : Bool
  ds : List Char

def signed (plus : Bool) (ds : List Char) : List Char := if plus then '+' :: ds else ds

namespace Spelling

def text (sp : Spelling) : List Char := fronts 'x' sp.small ++ (fronts 'X' sp.large ++ signed sp.plus sp.ds)

def IsPlain (sp : Spelling) : Prop := sp.small + sp.large ≤ 1 ∧ sp.plus = false

end Spelling

section
variable {n m : Nat} {mark c : Char} {v : UInt8} {s ds : List Char} {plus : Bool} {sp : Spelling}

/-! ## Fronts -/

theorem fronts_succ (mark : Char) (n : Nat) (s : List Char) :
    fronts mark (n + 1) ++ s = '0' :: mark :: (fronts mark n ++ s) := by
  unfold fronts
  rw [List.replicate_succ, List.flatten_cons]
  rfl

theorem length_fronts (mark : Char) (n : Nat) : (fronts mark n).length = 2 * n := by
  unfold fronts
  simp [List.length_flatten, Nat.mul_comm]

theorem not_mem_fronts (other : c ≠ mark) (nonzero : c ≠ '0') : c ∉ fronts mark n := by
  unfold fronts
  intro mem
  obtain ⟨front, which, mem⟩ := List.mem_flatten.mp mem
  rw [List.eq_of_mem_replicate which] at mem
  simp [other, nonzero] at mem

theorem dropFronts_fronts (mark : Char) (n : Nat) (s : List Char) :
    dropFronts mark (fronts mark n ++ s) = dropFronts mark s := by
  induction n with
  | zero => rfl
  | succ n ih => rw [fronts_succ, dropFronts, if_pos rfl, ih]

theorem exists_fronts (mark : Char) (s : List Char) : ∃ n, s = fronts mark n ++ dropFronts mark s := by
  fun_induction dropFronts mark s with
  | case1 r ih =>
    obtain ⟨n, same⟩ := ih
    refine ⟨n + 1, ?_⟩
    rw [fronts_succ, ← same]
  | case2 c r other => exact ⟨0, rfl⟩
  | case3 s other => exact ⟨0, rfl⟩

theorem not_mem_signed (digits : ∀ c ∈ ds, Hex.IsDigit c) (strange : Hex.value? c = none) (unsigned : c ≠ '+') :
    c ∉ signed plus ds := by
  have absent : c ∉ ds := by
    intro mem
    have digit := digits c mem
    rw [Hex.IsDigit, strange] at digit
    cases digit
  unfold signed
  split
  · simp [absent, unsigned]
  · exact absent

theorem digits_text (digits : ∀ c ∈ sp.ds, Hex.IsDigit c) : HexByte.digits sp.text = signed sp.plus sp.ds := by
  have x : 'x' ∉ signed sp.plus sp.ds := not_mem_signed digits (by decide) (by decide)
  have X : 'X' ∉ signed sp.plus sp.ds := not_mem_signed digits (by decide) (by decide)
  have x' : 'x' ∉ fronts 'X' sp.large ++ signed sp.plus sp.ds := by
    rw [List.mem_append, not_or]
    exact ⟨not_mem_fronts (by decide) (by decide), x⟩
  unfold HexByte.digits Spelling.text
  rw [dropFronts_fronts, dropFronts_of_not_mem x', dropFronts_fronts, dropFronts_of_not_mem X]

/-! ## Digits -/

/-- Digits are read to the end if and only if there is room for their number. -/
theorem extend_eq_ok_iff (room : n < 256) : extend n ds = .ok m ↔
    (∀ c ∈ ds, Hex.IsDigit c) ∧ Hex.valueFrom n ds = m ∧ m < 256 := by
  induction ds generalizing n with
  | nil =>
    simp only [extend, Except.ok.injEq, Hex.valueFrom, List.foldl_nil]
    constructor
    · rintro rfl
      exact ⟨List.forall_mem_nil _, rfl, room⟩
    · rintro ⟨-, same, -⟩
      exact same
  | cons c ds ih =>
    rw [List.forall_mem_cons, Hex.valueFrom_cons, extend]
    cases digit : Hex.value? c with
    | none => simp [Hex.IsDigit, digit]
    | some d =>
      have small := Hex.value?_lt digit
      have here : Hex.IsDigit c := by rw [Hex.IsDigit, digit]; rfl
      have grows := Hex.le_valueFrom (n * 16 + d) ds
      simp only [here, true_and, Option.getD_some]
      by_cases full : 256 ≤ n * 16
      · rw [if_pos full]
        constructor
        · intro read
          cases read
        · rintro ⟨-, same, fits⟩
          omega
      · rw [if_neg full]
        apply ih
        omega

theorem number_eq_ok_iff : number s = .ok m ↔ ∃ plus ds, HexByte.digits s = signed plus ds ∧
    ds ≠ [] ∧ (∀ c ∈ ds, Hex.IsDigit c) ∧ Hex.value ds = m ∧ m < 256 := by
  have unsigned : ¬ Hex.IsDigit '+' := by decide
  have zero : (0 : Nat) < 256 := by decide
  unfold number
  split
  · rename_i empty
    constructor
    · intro read
      cases read
    · rintro ⟨plus, ds, shape, nonempty, -⟩
      rw [empty] at shape
      cases plus with
      | true => cases shape
      | false => exact absurd shape.symm nonempty
  · rename_i c r signed
    rw [extend_eq_ok_iff zero, signed]
    constructor
    · rintro ⟨digits, value, fits⟩
      exact ⟨true, c :: r, rfl, List.cons_ne_nil c r, digits, value, fits⟩
    · rintro ⟨plus, ds, shape, -, digits, value, fits⟩
      cases plus with
      | true =>
        cases shape
        exact ⟨digits, value, fits⟩
      | false =>
        cases shape
        exact absurd (digits '+' List.mem_cons_self) unsigned
  · rename_i nonempty single
    rw [extend_eq_ok_iff zero]
    constructor
    · rintro ⟨digits, value, fits⟩
      exact ⟨false, HexByte.digits s, rfl, nonempty, digits, value, fits⟩
    · rintro ⟨plus, ds, shape, nonempty, digits, value, fits⟩
      cases plus with
      | false =>
        cases shape
        exact ⟨digits, value, fits⟩
      | true =>
        cases ds with
        | nil => exact absurd rfl nonempty
        | cons c r => exact absurd shape (single c r)

/-! ## Bytes -/

theorem read_eq_ok_iff : read s = .ok v ↔ number s = .ok v.toNat := by
  unfold read
  constructor
  · intro made
    cases told : number s with
    | error flaw => rw [told] at made; cases made
    | ok m =>
      rw [told] at made
      cases made
      obtain ⟨-, -, -, -, -, -, fits⟩ := number_eq_ok_iff.mp told
      rw [UInt8.toNat_ofNat', Nat.mod_eq_of_lt fits]
  · intro told
    rw [told, Except.map, UInt8.ofNat_toNat]

theorem read_text (tells : Tells v sp.ds) : read sp.text = .ok v := by
  rw [read_eq_ok_iff, number_eq_ok_iff]
  exact ⟨sp.plus, sp.ds, digits_text tells.digits, tells.nonempty, tells.digits, tells.value, v.toNat_lt⟩

theorem exists_spelling (made : read s = .ok v) : ∃ sp : Spelling, sp.text = s ∧ Tells v sp.ds := by
  obtain ⟨plus, ds, shape, nonempty, digits, value, -⟩ := number_eq_ok_iff.mp (read_eq_ok_iff.mp made)
  obtain ⟨small, first⟩ := exists_fronts 'x' s
  obtain ⟨large, second⟩ := exists_fronts 'X' (dropFronts 'x' s)
  refine ⟨⟨small, large, plus, ds⟩, ?_, nonempty, digits, value⟩
  have rest : dropFronts 'X' (dropFronts 'x' s) = signed plus ds := shape
  unfold Spelling.text
  rw [← rest, ← second, ← first]

theorem plain_iff : Plain v s ↔ ∃ sp : Spelling, sp.text = s ∧ Tells v sp.ds ∧ sp.IsPlain := by
  constructor
  · rintro (tells | ⟨rfl | rfl, tells⟩)
    · exact ⟨⟨0, 0, false, s⟩, rfl, tells, Nat.zero_le 1, rfl⟩
    · exact ⟨⟨1, 0, false, _⟩, rfl, tells, Nat.le_refl 1, rfl⟩
    · exact ⟨⟨0, 1, false, _⟩, rfl, tells, Nat.le_refl 1, rfl⟩
  · rintro ⟨⟨small, large, plus, ds⟩, rfl, tells, few, unsigned⟩
    cases unsigned
    cases small with
    | zero =>
      cases large with
      | zero => exact .bare tells
      | succ large =>
        obtain rfl : large = 0 := by
          simp only at few
          omega
        exact .marked (.inr rfl) tells
    | succ small =>
      obtain ⟨rfl, rfl⟩ : small = 0 ∧ large = 0 := by
        simp only at few
        omega
      exact .marked (.inl rfl) tells

/-- Two spellings of one text differ in nothing that counts: one is plain if the other is. -/
theorem isPlain_congr {sp sp' : Spelling} (same : sp.text = sp'.text) (digits : ∀ c ∈ sp.ds, Hex.IsDigit c)
    (digits' : ∀ c ∈ sp'.ds, Hex.IsDigit c) (plain : sp.IsPlain) : sp'.IsPlain := by
  obtain ⟨few, unsigned⟩ := plain
  have rests := congrArg HexByte.digits same
  rw [digits_text digits, digits_text digits'] at rests
  have lengths := congrArg List.length same
  unfold Spelling.text at lengths
  rw [rests] at lengths
  simp only [List.length_append, length_fronts] at lengths
  refine ⟨by omega, ?_⟩
  rw [unsigned] at rests
  cases plus : sp'.plus with
  | false => rfl
  | true =>
    rw [plus] at rests
    have mem : '+' ∈ sp.ds := by
      rw [show sp.ds = '+' :: sp'.ds from rests]
      exact List.mem_cons_self
    exact absurd (digits '+' mem) (by decide)

/-- A text is taken for a byte if and only if it spells it. Digits with one front or none are always taken for their
number, and of a text no more is taken than that if and only if it spells no byte with more fronts, or with a sign. -/
theorem byte_kept_iff (s : List Char) :
    (∀ v, read s = .ok v ↔ ∃ sp : Spelling, sp.text = s ∧ Tells v sp.ds) ∧
    (∀ v, Plain v s → read s = .ok v) ∧
    ((∀ v, read s = .ok v ↔ Plain v s) ↔ ∀ (sp : Spelling) v, sp.text = s → Tells v sp.ds → sp.IsPlain) := by
  have taken (v : UInt8) (plain : Plain v s) : read s = .ok v := by
    obtain ⟨sp, rfl, tells, -⟩ := plain_iff.mp plain
    exact read_text tells
  refine ⟨fun v => ⟨exists_spelling, ?_⟩, taken, ?_⟩
  · rintro ⟨sp, rfl, tells⟩
    exact read_text tells
  · constructor
    · intro kept sp v spelled tells
      have made : read s = .ok v := by
        rw [← spelled]
        exact read_text tells
      obtain ⟨sp', spelled', tells', plain⟩ := plain_iff.mp ((kept v).mp made)
      exact isPlain_congr (spelled'.trans spelled.symm) tells'.digits tells.digits plain
    · intro only v
      constructor
      · intro made
        obtain ⟨sp, spelled, tells⟩ := exists_spelling made
        exact plain_iff.mpr ⟨sp, spelled, tells, only sp v spelled tells⟩
      · exact taken v

/-- Two fronts are taken where one will do, and so is a sign. In the other order the fronts are refused. -/
theorem byte_lost_to_fronts :
    read "0x0x11".toList = .ok 0x11 ∧ ¬ Plain 0x11 "0x0x11".toList ∧
    read "0x0X11".toList = .ok 0x11 ∧ ¬ Plain 0x11 "0x0X11".toList ∧ read "0X0x11".toList = .error .badDigit ∧
    read "+f".toList = .ok 0x0f ∧ ¬ Plain 0x0f "+f".toList := by
  have bare {s : List Char} {v : UInt8} (c : Char) (mem : c ∈ s) (strange : ¬ Hex.IsDigit c) : ¬ Tells v s := by
    intro tells
    exact strange (tells.digits c mem)
  have marked {v : UInt8} {s : List Char} (c : Char) (mem : c ∈ s.drop 2) (strange : ¬ Hex.IsDigit c) :
      ¬ Plain v s := by
    rintro (tells | ⟨-, tells⟩)
    · exact bare c (List.mem_of_mem_drop mem) strange tells
    · exact bare c mem strange tells
  refine ⟨by decide, marked 'x' (by decide) (by decide), by decide, marked 'X' (by decide) (by decide), by decide,
    by decide, ?_⟩
  generalize text : "+f".toList = s
  intro plain
  cases plain with
  | bare tells => exact bare '+' (by rw [← text]; decide) (by decide) tells
  | marked => cases text

end

end HexByte

end HidGate
