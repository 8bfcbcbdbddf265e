import HidGate.Fault

/-!
# Feature reports of a device

A table of replies by report number, and one rule for all reports that are set.
-/

namespace HidGate

/-- The answer to a feature request: bytes, and the count claimed if it is not that of the bytes copied; or
an error number. -/
inductive Feature
  | reply (data : Bytes) (claimed : Option Nat)
  | fault (n : Int)
  deriving DecidableEq, Repr

/-- The answer to a report that is set. A device that `stores` bytes puts them into the buffer the report came in. -/
inductive SetRule
  | length
  | claim (n : Nat)
  | fault (n : Int)
  | stores (data : Bytes)
  deriving DecidableEq, Repr

structure FeatureTable where
  replies : List (UInt8 × Feature)
  setRule : SetRule
  deriving DecidableEq, Repr

namespace FeatureTable

def empty : FeatureTable := ⟨[], .length⟩

def put (id : UInt8) (f : Feature) (t : FeatureTable) : FeatureTable :=
  { t with replies := (id, f) :: t.replies.filter (·.1 ≠ id) }

/-- The answer to a request whose first byte names the report: the count claimed and the bytes copied, or an
error number. A report that is not in the table breaks the pipe. -/
def get (t : FeatureTable) (scratch : Bytes) : Except Int (Nat × Bytes) :=
  match scratch.head?.bind (t.replies.lookup ·) with
  | none => .error Errno.brokenPipe
  | some (.fault n) => .error n
  | some (.reply data claimed) => .ok (claimed.getD (min data.length scratch.length), data)

def set (t : FeatureTable) (report : Bytes) : Except Int Nat × Bytes :=
  match t.setRule with
  | .fault n => (.error n, [])
  | .claim n => (.ok n, [])
  | .length => (.ok report.length, [])
  | .stores data => (.ok report.length, data)

end FeatureTable

end HidGate
