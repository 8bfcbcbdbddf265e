/-!
# Reports

A report is a string of 1 to 4096 bytes. This module holds the byte strings, the two length limits, the
kinds of report, and `overlay`, the one way in which a report reaches a caller's buffer.
-/

namespace HidGate

abbrev Bytes := List UInt8

/-- Longest report that a control request or an output write may carry. -/
def maxBuffer : Nat := 4096

/-- Longest report that one read takes off a device. -/
def maxRead : Nat := 4096

inductive ReportKind
  | input
  | output
  | feature
  deriving DecidableEq, Repr

inductive Direction
  | get
  | set
  deriving DecidableEq, Repr

def ReportKind.name : ReportKind → String
  | .input => "Input"
  | .output => "Output"
  | .feature => "Feature"

/-! ## Buffers -/

def Bytes.filled (n : Nat) (b : UInt8) : Bytes := List.replicate n b

/-- The buffer after as much of the report as fits was copied to its front. -/
def Bytes.overlay (report buffer : Bytes) : Bytes :=
  report.take buffer.length ++ buffer.drop report.length

/-- A report as a device left it in a zeroed buffer of `size` bytes, of which it claims the first `n`. -/
def Bytes.window (stored : Bytes) (size n : Nat) : Bytes :=
  ((stored.take size) ++ List.replicate (size - stored.length) 0).take n

theorem Bytes.length_overlay (report buffer : Bytes) : (report.overlay buffer).length = buffer.length := by
  simp only [Bytes.overlay, List.length_append, List.length_take, List.length_drop]; omega

theorem Bytes.take_overlay (report buffer : Bytes) :
    (report.overlay buffer).take report.length = report.take buffer.length := by
  rw [overlay]
  rcases Nat.le_total report.length buffer.length with short | long
  · rw [List.take_of_length_le short, List.take_left]
  · rw [List.drop_eq_nil_of_le long, List.append_nil, List.take_take, Nat.min_eq_right long]

theorem Bytes.getElem?_overlay {report buffer : Bytes} {i : Nat} (beyond : report.length ≤ i) :
    (report.overlay buffer)[i]? = buffer[i]? := by
  rw [overlay]
  rcases Nat.le_total report.length buffer.length with short | long
  · rw [List.take_of_length_le short, List.getElem?_append_right beyond, List.getElem?_drop,
      Nat.add_sub_cancel' beyond]
  · have out := Nat.le_trans long beyond
    rw [List.drop_eq_nil_of_le long, List.append_nil, List.getElem?_eq_none out, List.getElem?_eq_none]
    exact Nat.le_trans (List.length_take_le ..) out

theorem Bytes.length_window (stored : Bytes) {size n : Nat} (h : n ≤ size) :
    (stored.window size n).length = n := by
  simp only [Bytes.window, List.length_take, List.length_append, List.length_replicate]; omega

end HidGate
