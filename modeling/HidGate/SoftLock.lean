import HidGate.Pipe

/-!
# The soft lock

Who may use the read path. `reader` is the party that may read now; `grabber` is the party that announces it
wants to. A stealer takes `grabber`, writes a byte to the pipe, waits for `reader`, empties the pipe and
gives `grabber` back. The listener passes through `grabber` after each cycle, so it cannot take `reader`
again before a waiting stealer has had it.
-/

namespace HidGate

inductive Party
  | listener
  | client (n : Nat)
  deriving DecidableEq, Repr

/-- Two mutexes, each with its holder, and the interrupt pipe. -/
structure SoftLock where
  reader : Option Party
  grabber : Option Party
  pipe : Pipe
  deriving DecidableEq, Repr

namespace SoftLock

def free : SoftLock := ⟨none, none, .empty⟩

def acquire? (l : SoftLock) (p : Party) : Option SoftLock :=
  if l.reader.isNone then some { l with reader := some p } else none

def release (l : SoftLock) : SoftLock := { l with reader := none }

def grab? (l : SoftLock) (p : Party) : Option SoftLock :=
  if l.grabber.isNone then some { l with grabber := some p } else none

def ungrab (l : SoftLock) : SoftLock := { l with grabber := none }

def interrupt (l : SoftLock) : SoftLock := { l with pipe := l.pipe.notify }

def drained (l : SoftLock) : SoftLock := { l with pipe := l.pipe.drain.2 }

end SoftLock

/-! ## Stealing -/

inductive Steal
  | grab
  | announce
  | take
  | clear
  | ungrab
  deriving DecidableEq, Repr

/-- One step of a stealer: the lock afterwards, and what is left to do. A stealer that has to wait has no
step; `take` is where the announcement is made and the read path not yet had. -/
def Steal.step? (p : Party) : Steal → SoftLock → Option (SoftLock × Option Steal)
  | .grab, l => (l.grab? p).map (·, some .announce)
  | .announce, l => some (l.interrupt, some .take)
  | .take, l => (l.acquire? p).map (·, some .clear)
  | .clear, l => some (l.drained, some .ungrab)
  | .ungrab, l => some (l.ungrab, none)

/-! ## Permits -/

/-- The right to read a device with a given number: exclusive if it was stolen from a listener. -/
structure Permit where
  device : Nat
  exclusive : Bool
  deriving DecidableEq, Repr

def Permit.guards (permit : Permit) (device : Nat) : Bool := permit.device == device

end HidGate
