import HidGate.Gate.Read

/-!
# The listener

A thread that keeps the queue of reports short: in each cycle it takes the read path, reads one report into
one byte, gives the read path back, pauses if the read failed hard, and passes through the right to announce,
where a waiting stealer holds it up.
-/

namespace HidGate

/-- What the listener's thread does next. `leave` is the end of a read, still on the read path; `pass` is
between taking the right to announce and giving it back. -/
inductive Duty
  | check
  | acquire
  | read (s : ReadStage)
  | leave (result : Except Fault Nat)
  | pause
  | gate
  | pass

inductive Worker
  | working (d : Duty)
  | finished
  | crashed

/-- The listener of a handle. One that runs may have been asked to finish, and its thread may have ended. -/
inductive Listener
  | stopped
  | running (wanted : Bool) (worker : Worker)

def Listener.isRunning : Listener → Bool
  | .stopped => false
  | .running .. => true

namespace Duty

variable {σ : Type} [Endpoint σ]

/-- The duty after a step of a read. A crash gives the read path back. -/
def ofRead : ReadNext × Gate σ → Worker × Gate σ
  | (.stage s, g) => (.working (.read s), g)
  | (.ended result, g) => (.working (.leave (result.map List.length)), g)
  | (.crashed, g) => (.crashed, { g with lock := g.lock.release })

def report : Except Fault Nat → Gate σ → Worker × Gate σ
  | .ok n, g => (.working .gate, g.note .listener (.listenerDrained n))
  | .error f, g =>
    if f.isTransient then (.working .gate, g)
    else (.working .pause, g.note .listener (.listenerFailed f))

def step? (wanted : Bool) : Duty → Gate σ → Option (Worker × Gate σ)
  | .check, g =>
    some (if wanted then (.working .acquire, g) else (.finished, g.note .listener .listenerExiting))
  | .acquire, g => (g.lock.acquire? .listener).map fun lock => (.working (.read .poll), { g with lock })
  | .read s, g => (s.step? .listener true g).map ofRead
  | .leave result, g => some (report result { g with lock := g.lock.release })
  | .pause, g => some (.working .gate, g)
  | .gate, g => (g.lock.grab? .listener).map fun lock => (.working .pass, { g with lock })
  | .pass, g => some (.working .check, { g with lock := g.lock.ungrab })

def expire? : Duty → Gate σ → Option (Worker × Gate σ)
  | .read s, g => (s.expire? g).map fun next => ofRead (next, g)
  | _, _ => none

end Duty

end HidGate
