/-!
# The interrupt pipe

Bytes in the pipe wake whoever is polling. Only their number matters. A full pipe drops a further byte: it
wakes the poller all the same.
-/

namespace HidGate

/-- A pipe that holds at most 65536 bytes. -/
structure Pipe where
  bytes : Nat
  bounded : bytes ≤ 65536
  deriving DecidableEq, Repr

namespace Pipe

def capacity : Nat := 65536

def empty : Pipe := ⟨0, by decide⟩

def isEmpty (p : Pipe) : Bool := p.bytes == 0

def notify (p : Pipe) : Pipe := ⟨min (p.bytes + 1) capacity, Nat.min_le_right _ _⟩

def notifyMany : Nat → Pipe → Pipe
  | 0, p => p
  | n + 1, p => notifyMany n p.notify

def chunk : Nat := 64

/-- One read: as many bytes as are there, at most a chunk. -/
def take (p : Pipe) : Nat × Pipe :=
  (min chunk p.bytes, ⟨p.bytes - chunk, Nat.le_trans (Nat.sub_le _ _) p.bounded⟩)

def drainFrom (total : Nat) (p : Pipe) : Nat × Pipe :=
  if p.isEmpty then (total, p) else drainFrom (total + p.take.1) p.take.2
termination_by p.bytes
decreasing_by
  simp only [isEmpty, beq_iff_eq] at *
  simp only [take, chunk]; omega

def drain (p : Pipe) : Nat × Pipe := drainFrom 0 p

@[ext] theorem ext {p q : Pipe} (h : p.bytes = q.bytes) : p = q := by
  cases p; cases q; simp_all

theorem drainFrom_eq (total : Nat) (p : Pipe) : drainFrom total p = (total + p.bytes, empty) := by
  fun_induction drainFrom total p with
  | case1 total p h =>
    have h0 : p.bytes = 0 := by simpa [isEmpty] using h
    exact Prod.ext (by simp [h0]) (Pipe.ext h0)
  | case2 total p h ih =>
    rw [ih]
    have : total + p.take.1 + p.take.2.bytes = total + p.bytes := by simp only [take, chunk]; omega
    rw [this]

/-- All bytes are counted, whole chunks or not, and none is left. -/
theorem drain_eq (p : Pipe) : p.drain = (p.bytes, empty) := by
  simp [drain, drainFrom_eq]

theorem notify_not_empty (p : Pipe) : p.notify.isEmpty = false := by
  simp only [isEmpty, notify, capacity, beq_eq_false_iff_ne]; omega

end Pipe

end HidGate
