import HidGate.SoftLock

/-!
# One holder and many stealers

A soft lock with at most one holder of the read path and any number of stealers that want it for a moment:
each steals, and gives it back at once. A call that would have to wait has no result.
-/

namespace HidGate

inductive Stint
  | stealing (s : Steal)
  | leaving
  deriving DecidableEq, Repr

def Stint.step? (p : Party) : Stint → SoftLock → Option (SoftLock × Option Stint)
  | .stealing s, l => (s.step? p l).map fun (l, rest) => (l, some (rest.elim .leaving .stealing))
  | .leaving, l => some (l.release, none)

/-- A soft lock with its stealers, oldest first, each with a number of its own. The holder is client 0. -/
structure Contest where
  lock : SoftLock
  stealers : List (Nat × Stint)
  issued : Nat
  deriving DecidableEq, Repr

namespace Contest

def start : Contest := ⟨.free, [], 0⟩

def turn? (l : SoftLock) : List (Nat × Stint) → Option (SoftLock × List (Nat × Stint))
  | [] => none
  | (n, s) :: rest =>
    match s.step? (.client n) l with
    | some (l, some s) => some (l, (n, s) :: rest)
    | some (l, none) => some (l, rest)
    | none => (turn? l rest).map fun (l, rest) => (l, (n, s) :: rest)

def settleFor : Nat → Contest → Contest
  | 0, c => c
  | fuel + 1, c =>
    match turn? c.lock c.stealers with
    | some (l, ss) => settleFor fuel { c with lock := l, stealers := ss }
    | none => c

/-- Lets the stealers run until each has left or waits. No stealer takes more than six steps. -/
def settle (c : Contest) : Contest := settleFor (6 * c.stealers.length) c

def holder : Party := .client 0

/-- All steps of a steal in a row; there is no result if one of them would wait. -/
def stealAll? (p : Party) (l : SoftLock) : Option SoftLock :=
  [Steal.grab, .announce, .take, .clear, .ungrab].foldlM (fun l s => (s.step? p l).map (·.1)) l

def interrupt (n : Nat) (c : Contest) : Contest :=
  { c with lock := { c.lock with pipe := c.lock.pipe.notifyMany n } }

def drain (c : Contest) : Nat × Contest :=
  (c.lock.pipe.drain.1, { c with lock := c.lock.drained })

def acquire? (c : Contest) : Option Contest :=
  (c.lock.acquire? holder).map ({ c with lock := · })

def steal? (c : Contest) : Option Contest :=
  (stealAll? holder c.lock).map ({ c with lock := · })

def yield? (c : Contest) : Option Contest :=
  (c.lock.grab? .listener).map ({ c with lock := ·.ungrab })

/-- A new stealer runs as far as it can; it waits if it is still there. -/
def spawn (c : Contest) : Bool × Contest :=
  let n := c.issued + 1
  let c := settle { c with stealers := c.stealers ++ [(n, .stealing .grab)], issued := n }
  (c.stealers.any (·.1 == n), c)

def release (c : Contest) : Bool × Contest :=
  let held := c.lock.reader == some holder
  (held, settle (if held then { c with lock := c.lock.release } else c))

end Contest

end HidGate
