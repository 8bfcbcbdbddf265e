import HidGate.Text.Hex

/-!
# Control characters made visible

In a log line the characters that a terminal acts on are shown as numbers: five of the first control
characters, and the whole second set. Line breaks and tabs stay as they are.
-/

namespace HidGate.Visible

def isShort (c : Char) : Bool := [0x07, 0x08, 0x0c, 0x1b, 0x7f].contains c.toNat

def isLong (c : Char) : Bool := 0x80 ≤ c.toNat && c.toNat ≤ 0x9f

def char (c : Char) : List Char :=
  if isShort c then '\\' :: 'x' :: Hex.fixed .lower 2 c.toNat
  else if isLong c then ['\\', 'u', '\x7b'] ++ Hex.fixed .lower 2 c.toNat ++ ['\x7d']
  else [c]

def text (s : String) : String := String.ofList (s.toList.flatMap char)

end HidGate.Visible
