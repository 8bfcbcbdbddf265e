import HidGate.Endpoint
import HidGate.Feature

/-!
# An endpoint in memory

A queue of what reads and polls will meet, a table of features, a rule for writes, and a record of what was
asked of it. The three parts do not touch one another.
-/

namespace HidGate

namespace Bench

inductive Item
  | report (r : Reading)
  | readFault (n : Int)
  | pollFault (n : Int)
  deriving DecidableEq, Repr

/-- The answer to a write: how many bytes are accepted at most, and the count claimed if it is not theirs. -/
inductive WriteRule
  | accept (limit claimed : Option Nat)
  | fault (n : Int)
  deriving DecidableEq, Repr

end Bench

open Bench in
/-- An endpoint in memory. `taken` holds the items that left the queue, oldest first. -/
structure Bench where
  queue : List Item
  taken : List Item
  features : FeatureTable
  requests : Nat
  lastSet : Option Bytes
  writeRule : WriteRule
  outputs : List Bytes
  deriving DecidableEq, Repr

namespace Bench

def fresh : Bench := ⟨[], [], .empty, 0, none, .accept none none, []⟩

def Item.isRead : Item → Bool
  | .pollFault _ => false
  | _ => true

def reads (b : Bench) : Nat := b.taken.countP Item.isRead

def accesses (b : Bench) : Nat := b.reads + b.requests

/-! ## Input -/

def arrive (items : List Item) (b : Bench) : Bench := { b with queue := b.queue ++ items }

def advance (x : Item) (rest : List Item) (b : Bench) : Bench :=
  { b with queue := rest, taken := b.taken ++ [x] }

def pollFault? (b : Bench) : Option (Int × Bench) :=
  match b.queue with
  | .pollFault n :: rest => some (n, b.advance (.pollFault n) rest)
  | _ => none

def fetch? (b : Bench) : Option (Except SystemError Reading × Bench) :=
  match b.queue with
  | .report r :: rest => some (.ok r, b.advance (.report r) rest)
  | .readFault n :: rest => some (.error (.code n), b.advance (.readFault n) rest)
  | _ => none

/-! ## Features -/

def getFeature (scratch : Bytes) (b : Bench) : Except SystemError (Nat × Bytes) × Bench :=
  ((b.features.get scratch).mapError .code, { b with requests := b.requests + 1 })

/-- A report that is refused is not kept. -/
def setFeature (report : Bytes) (b : Bench) : (Except SystemError Nat × Bytes) × Bench :=
  let b := { b with requests := b.requests + 1 }
  match b.features.set report with
  | (.error n, data) => ((.error (.code n), data), b)
  | (.ok n, data) => ((.ok n, data), { b with lastSet := some report })

/-! ## Output -/

def write (report : Bytes) (b : Bench) : Except SystemError Nat × Bench :=
  match b.writeRule with
  | .fault n => (.error (.code n), b)
  | .accept limit claimed =>
    let accepted := report.take (limit.getD report.length)
    (.ok (claimed.getD accepted.length), { b with outputs := b.outputs ++ [accepted] })

end Bench

instance : Endpoint Bench where
  pollFault? := Bench.pollFault?
  fetch? := Bench.fetch?
  write := Bench.write
  getFeature := Bench.getFeature
  setFeature := Bench.setFeature
  backlog := fun b => b.queue.length

end HidGate
