import HidGate.Identity
import HidGate.Proofs.Numerals
import Mathlib.Logic.Function.Basic

/-!
# The text of an identity tells it

Each bus has one number and one name. In a text the numbers of vendor and product have a fixed width, so it is known
where the name ends, and no two identities have the same text.
-/

namespace HidGate

namespace Bus

def named : List Bus := [.pci, .usb, .bluetooth, .virtual, .i2c, .host, .spi]

def code : Bus → UInt32
  | .pci => 0x01
  | .usb => 0x03
  | .bluetooth => 0x05
  | .virtual => 0x06
  | .i2c => 0x18
  | .host => 0x19
  | .spi => 0x1c
  | .other code => code

section
variable {b b' : Bus} {c c' : UInt32}

theorem mem_named_iff : b ∈ named ↔ ∀ c, b ≠ .other c := by
  cases b <;> simp [named]

theorem ofCode_code : ∀ b ∈ named, ofCode b.code = b := by
  decide

theorem ofCode_cases (c : UInt32) : ofCode c ∈ named ∧ (ofCode c).code = c ∨
    ofCode c = .other c ∧ c ∉ named.map code := by
  by_cases numbered : c ∈ named.map code
  · left
    obtain ⟨b, known, rfl⟩ := List.mem_map.mp numbered
    rw [ofCode_code b known]
    exact ⟨known, rfl⟩
  · right
    refine ⟨?_, numbered⟩
    -- each of the seven numbers is that of a named bus
    have apart {n : Nat} (known : UInt32.ofNat n ∈ named.map code) : c.toNat ≠ n := by
      intro same
      apply numbered
      rw [← same, UInt32.ofNat_toNat] at known
      exact known
    unfold ofCode
    split
    case h_8 => rfl
    all_goals
      rename_i same
      exact absurd same (apart (by decide))

theorem code_ofCode (c : UInt32) : (ofCode c).code = c := by
  rcases ofCode_cases c with ⟨-, same⟩ | ⟨other, -⟩
  · exact same
  · rw [other, code]

theorem ofCode_injective : Function.Injective ofCode := Function.LeftInverse.injective code_ofCode

theorem ofCode_eq_other_iff : ofCode c = .other c' ↔ c' = c ∧ c ∉ named.map code := by
  rcases ofCode_cases c with ⟨known, same⟩ | ⟨other, unnumbered⟩
  · constructor
    · intro other
      exact absurd other (mem_named_iff.mp known c')
    · rintro ⟨-, unnumbered⟩
      have numbered := List.mem_map_of_mem (f := code) known
      rw [same] at numbered
      exact absurd numbered unnumbered
  · rw [other]
    constructor
    · intro same
      cases same
      exact ⟨rfl, unnumbered⟩
    · rintro ⟨rfl, -⟩
      rfl

/-! ## Names -/

theorem toList_name_other (c : UInt32) :
    (Bus.other c).name.toList = "Other(".toList ++ Nat.toDigits 10 c.toNat ++ ")".toList := by
  have digits : (toString c.toNat).toList = Nat.toDigits 10 c.toNat := String.toList_ofList
  unfold name
  rw [String.toList_append, String.toList_append, digits]

/-- No name of a bus begins like that of a bus without one. -/
theorem head_name_named : ∀ b ∈ named, b.name.toList.head? ≠ some 'O' := by
  decide

theorem head_name_other (c : UInt32) : (Bus.other c).name.toList.head? = some 'O' := by
  rw [toList_name_other]
  rfl

theorem name_injective : Function.Injective name := by
  intro b b' same
  by_cases known : b ∈ named
  · by_cases known' : b' ∈ named
    · have distinct : ∀ b ∈ named, ∀ b' ∈ named, b.name = b'.name → b = b' := by decide
      exact distinct b known b' known' same
    · cases b' with
      | other c' =>
        have heads := congrArg (·.toList.head?) same
        rw [head_name_other] at heads
        exact absurd heads (head_name_named b known)
      | _ => exact absurd (by decide) known'
  · cases b with
    | other c =>
      by_cases known' : b' ∈ named
      · have heads := congrArg (·.toList.head?) same
        rw [head_name_other] at heads
        exact absurd heads.symm (head_name_named b' known')
      · cases b' with
        | other c' =>
          have texts := congrArg String.toList same
          rw [toList_name_other, toList_name_other, List.append_cancel_right_eq, List.append_cancel_left_eq] at texts
          have numbers := congrArg (Nat.ofDigitChars 10 · 0) texts
          simp only [Nat.ofDigitChars_toDigits (b := 10) (by decide) (by decide)] at numbers
          rw [UInt32.toNat_inj.mp numbers]
        | _ => exact absurd (by decide) known'
    | _ => exact absurd (by decide) known

end

end Bus

/-! ## Texts -/

namespace Identity

section
variable {i j : Identity} {a b : RawIdentity}

def tail (i : Identity) : List Char :=
  ' ' :: Hex.fixed .lower 4 i.vendor.toNat ++ ':' :: Hex.fixed .lower 4 i.product.toNat

theorem toList_text (i : Identity) : i.text.toList = i.bus.name.toList ++ i.tail := by
  unfold text tail
  simp only [String.toList_append, String.toList_ofList, List.append_assoc]
  rfl

theorem length_tail (i : Identity) : i.tail.length = 10 := by
  unfold tail
  simp [Hex.length_fixed]

theorem tail_inj : i.tail = j.tail ↔ i.vendor = j.vendor ∧ i.product = j.product := by
  have room (n : UInt16) : n.toNat < 16 ^ 4 := n.toNat_lt
  constructor
  · intro same
    unfold tail at same
    have lengths : (Hex.fixed .lower 4 i.vendor.toNat).length = (Hex.fixed .lower 4 j.vendor.toNat).length := by
      rw [Hex.length_fixed, Hex.length_fixed]
    obtain ⟨-, same⟩ := List.cons.inj same
    obtain ⟨vendor, same⟩ := List.append_inj same lengths
    obtain ⟨-, product⟩ := List.cons.inj same
    rw [Hex.fixed_inj (room _) (room _), UInt16.toNat_inj] at vendor product
    exact ⟨vendor, product⟩
  · rintro ⟨vendor, product⟩
    unfold tail
    rw [vendor, product]

theorem text_injective : Function.Injective text := by
  intro i j same
  have texts := congrArg String.toList same
  rw [toList_text, toList_text] at texts
  obtain ⟨names, tails⟩ := List.append_inj' texts (by rw [length_tail, length_tail])
  have bus := Bus.name_injective (String.toList_inj.mp names)
  obtain ⟨vendor, product⟩ := tail_inj.mp tails
  cases i
  cases j
  cases bus
  cases vendor
  cases product
  rfl

theorem ofRaw_injective : Function.Injective ofRaw := by
  intro a b same
  unfold ofRaw at same
  injection same with bus vendor product
  have bus := Bus.ofCode_injective bus
  -- a signed field is its bit pattern, and nothing else
  cases a with | mk _ v p =>
  cases b with | mk _ v' p' =>
  cases v
  cases v'
  cases p
  cases p'
  cases bus
  cases vendor
  cases product
  rfl

end

/-- A bus number is never taken for another, and it is kept as a number if and only if it is none of those that have a
name. Two identities that the kernel hands out are shown as the same text if and only if all their fields are equal. -/
theorem text_determines (a b : RawIdentity) :
    Function.Injective Bus.ofCode ∧
    (∀ c c', Bus.ofCode c = .other c' ↔ c' = c ∧ c ∉ Bus.named.map Bus.code) ∧
    (∀ known ∈ Bus.named, Bus.ofCode known.code = known ∧ ∀ c, known ≠ .other c) ∧
    ((ofRaw a).text = (ofRaw b).text ↔ a.bus = b.bus ∧ a.vendor = b.vendor ∧ a.product = b.product) := by
  refine ⟨Bus.ofCode_injective, fun c c' => Bus.ofCode_eq_other_iff, ?_, ?_⟩
  · intro known mem
    exact ⟨Bus.ofCode_code known mem, Bus.mem_named_iff.mp mem⟩
  · constructor
    · intro same
      have raw := ofRaw_injective (text_injective same)
      rw [raw]
      exact ⟨rfl, rfl, rfl⟩
    · rintro ⟨bus, vendor, product⟩
      unfold ofRaw
      rw [bus, vendor, product]

example : (ofRaw ⟨0x42, -1, 15⟩).text = "Other(66) ffff:000f" := by decide

end Identity

end HidGate
