import HidGate.Text.Hex

/-!
# Device identity

The bus, vendor and product numbers a node reports, and their one-line text. A bus number without a name of
its own is kept as `other`.
-/

namespace HidGate

inductive Bus
  | pci
  | usb
  | bluetooth
  | virtual
  | i2c
  | host
  | spi
  | other (code : UInt32)
  deriving DecidableEq, Repr

def Bus.ofCode (code : UInt32) : Bus :=
  match code.toNat with
  | 0x01 => .pci
  | 0x03 => .usb
  | 0x05 => .bluetooth
  | 0x06 => .virtual
  | 0x18 => .i2c
  | 0x19 => .host
  | 0x1c => .spi
  | _ => .other code

def Bus.name : Bus → String
  | .pci => "Pci"
  | .usb => "Usb"
  | .bluetooth => "Bluetooth"
  | .virtual => "Virtual"
  | .i2c => "I2c"
  | .host => "Host"
  | .spi => "Spi"
  | .other code => "Other(" ++ toString code.toNat ++ ")"

structure Identity where
  bus : Bus
  vendor : UInt16
  product : UInt16
  deriving DecidableEq, Repr

/-- The identity as the kernel hands it out: the vendor and product fields are signed there. -/
structure RawIdentity where
  bus : UInt32
  vendor : Int16
  product : Int16
  deriving DecidableEq, Repr

/-- The signed fields are read as the bit patterns they are. -/
def Identity.ofRaw (raw : RawIdentity) : Identity :=
  ⟨.ofCode raw.bus, raw.vendor.toUInt16, raw.product.toUInt16⟩

/-- Bus name, then vendor and product in four lower-case hexadecimal digits each. -/
def Identity.text (i : Identity) : String :=
  i.bus.name ++ " " ++ String.ofList (Hex.fixed .lower 4 i.vendor.toNat) ++ ":"
    ++ String.ofList (Hex.fixed .lower 4 i.product.toNat)

end HidGate
