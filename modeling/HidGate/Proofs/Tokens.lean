import HidGate.Monitor.Run
import Mathlib.Data.List.Forall2

/-!
# Bytes as texts

What is shown of bytes can be given back on a command line. Bytes are shown as pairs of digits with spaces between
them. Each pair is read as its byte, with a mark in front or without, and none of these texts is an option.
-/

namespace HidGate

/-! ## Pairs of digits -/

namespace Hex

section
variable {k : Case} {b : UInt8} {bs : List UInt8} {c : Char}

theorem byte_eq (k : Case) (b : UInt8) : byte k b = [k.digit (b.toNat / 16), k.digit (b.toNat % 16)] := by
  have high : b.toNat / 16 < 16 := by
    have := b.toNat_lt
    omega
  simp only [byte, fixed, Nat.mod_eq_of_lt high, List.nil_append, List.cons_append]

theorem value?_of_mem_byte (mem : c ∈ byte k b) : ∃ n, value? c = some n := by
  have high : b.toNat / 16 < 16 := by
    have := b.toNat_lt
    omega
  have low : b.toNat % 16 < 16 := Nat.mod_lt _ (by decide)
  rw [byte_eq, List.mem_cons, List.mem_singleton] at mem
  rcases mem with rfl | rfl
  · exact ⟨_, value?_digit k high⟩
  · exact ⟨_, value?_digit k low⟩

theorem not_mem_byte (strange : value? c = none) : c ∉ byte k b := fun mem => by
  obtain ⟨n, digit⟩ := value?_of_mem_byte mem
  cases strange.symm.trans digit

/-- The pieces between the spaces of a text. There is none in an empty text. -/
def pieces (s : String) : List (List Char) := (s.toList.splitOn ' ').filter (!·.isEmpty)

theorem splitOn_spaced (nonempty : bs ≠ []) : (spaced bs).toList.splitOn ' ' = bs.map (byte .lower) := by
  rw [spaced, String.toList_ofList, joined]
  refine List.splitOn_intercalate ' ' ?_ (by simpa using nonempty)
  intro piece mem
  obtain ⟨b, -, rfl⟩ := List.mem_map.mp mem
  exact not_mem_byte (by decide)

theorem pieces_spaced (bs : List UInt8) : pieces (spaced bs) = bs.map (byte .lower) := by
  cases bs with
  | nil => decide
  | cons b bs =>
    rw [pieces, splitOn_spaced (List.cons_ne_nil b bs)]
    refine List.filter_eq_self.mpr fun piece mem => ?_
    obtain ⟨b, -, rfl⟩ := List.mem_map.mp mem
    rw [byte_eq]
    rfl

/-- No bytes are shown as an empty text, which has no piece but is cut into one. -/
theorem splitOn_eq_pieces_iff : (spaced bs).toList.splitOn ' ' = pieces (spaced bs) ↔ bs ≠ [] := by
  constructor
  · rintro same rfl
    exact absurd same (by decide)
  · intro nonempty
    rw [pieces_spaced, splitOn_spaced nonempty]

end

end Hex

namespace HexByte

/-- A text for a byte: its two digits, after one mark or none. -/
inductive IsToken (b : UInt8) : List Char → Prop
  | bare : IsToken b (Hex.byte .lower b)
  | marked {mark : Char} (known : mark = 'x' ∨ mark = 'X') : IsToken b ('0' :: mark :: Hex.byte .lower b)

section
variable {b : UInt8} {s : List Char} {mark : Char}

theorem dropFronts_of_not_mem (absent : mark ∉ s) : dropFronts mark s = s := by
  unfold dropFronts
  split
  · rename_i c r
    have other : c ≠ mark := by
      rintro rfl
      simp at absent
    rw [if_neg other]
  · rfl

theorem digits_of_not_mem (x : 'x' ∉ s) (X : 'X' ∉ s) : digits s = s := by
  rw [digits, dropFronts_of_not_mem x, dropFronts_of_not_mem X]

theorem digits_token (h : IsToken b s) : digits s = Hex.byte .lower b := by
  have x : 'x' ∉ Hex.byte .lower b := Hex.not_mem_byte (by decide)
  have X : 'X' ∉ Hex.byte .lower b := Hex.not_mem_byte (by decide)
  cases h with
  | bare => exact digits_of_not_mem x X
  | marked known =>
    rcases known with rfl | rfl
    · rw [digits, dropFronts, if_pos rfl]
      exact digits_of_not_mem x X
    · have x' : 'x' ∉ '0' :: 'X' :: Hex.byte .lower b := by simp [x]
      rw [digits, dropFronts_of_not_mem x', dropFronts, if_pos rfl, dropFronts_of_not_mem X]

theorem extend_byte (b : UInt8) : extend 0 (Hex.byte .lower b) = .ok b.toNat := by
  have bound := b.toNat_lt
  have high : b.toNat / 16 < 16 := by omega
  have low : b.toNat % 16 < 16 := by omega
  have first : ¬ 256 ≤ 0 * 16 := by decide
  have second : ¬ 256 ≤ (0 * 16 + b.toNat / 16) * 16 := by omega
  have whole : (0 * 16 + b.toNat / 16) * 16 + b.toNat % 16 = b.toNat := by omega
  simp only [Hex.byte_eq, extend, Hex.value?_digit _ high, Hex.value?_digit _ low, if_neg first, if_neg second, whole]

theorem number_token (h : IsToken b s) : number s = .ok b.toNat := by
  have plus : '+' ∉ Hex.byte .lower b := Hex.not_mem_byte (by decide)
  have goes := extend_byte b
  rw [Hex.byte_eq] at plus goes
  rw [number, digits_token h, Hex.byte_eq]
  split
  · rename_i empty
    cases empty
  · rename_i signed
    rw [signed] at plus
    simp at plus
  · exact goes

theorem read_token (h : IsToken b s) : read s = .ok b := by
  rw [read, number_token h, Except.map, UInt8.ofNat_toNat]

theorem read_pieces (bs : List UInt8) : (bs.map (Hex.byte .lower)).mapM read = .ok bs := by
  induction bs with
  | nil => rfl
  | cons b bs ih =>
    rw [List.map_cons, List.mapM_cons, read_token .bare, ih]
    rfl

end

end HexByte

/-! ## Texts -/

namespace Monitor

open HexByte (IsToken)

def Spell (bs : Bytes) (texts : List String) : Prop := List.Forall₂ (fun b s => IsToken b s.toList) bs texts

section
variable {b : UInt8} {bs : Bytes} {text : String} {texts : List String}

theorem readByte_token (slot : Slot) (h : IsToken b text.toList) : readByte slot text = .ok b := by
  rw [readByte, HexByte.read_token h]
  rfl

theorem Argument.of_plain {c : Char} {r : List Char} (shape : text.toList = c :: r) (letter : c ≠ '-') :
    Argument.of text = .plain text := by
  unfold Argument.of
  rw [shape]
  split
  · rename_i h; cases h; exact absurd rfl letter
  · rename_i h; cases h; exact absurd rfl letter
  · rename_i h; cases h; exact absurd rfl letter
  · rfl

theorem Argument.of_token (h : IsToken b text.toList) : Argument.of text = .plain text := by
  have dash : '-' ∉ Hex.byte .lower b := Hex.not_mem_byte (by decide)
  generalize shape : text.toList = s at h
  cases h with
  | bare =>
    rw [Hex.byte_eq] at shape dash
    exact Argument.of_plain shape fun h => dash (by rw [h]; exact List.mem_cons_self)
  | marked => exact Argument.of_plain shape (by decide)

end

end Monitor

end HidGate
