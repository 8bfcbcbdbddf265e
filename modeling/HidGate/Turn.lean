import HidGate.Client
import HidGate.Handle

/-!
# Turns

One step of a client, by where it is in its call. The read path is stolen before it is used when a listener
runs, and used as it is when none does.
-/

namespace HidGate

abbrev Turn (σ : Type) := Client × Handle σ

namespace Handle

variable {σ : Type} [Endpoint σ]

/-- Why a read is refused before anything is done: the permit comes first. -/
def readRefusal? (permit : Permit) (buffer : Bytes) : Option Fault :=
  if !permit.guards number then some (.invalidArgument .foreignLock)
  else Fault.checkLength buffer.length maxRead

/-- A thread's name ends at no zero character. -/
def canName (thread : String) : Bool := !thread.toList.contains '\x00'

def startedTwice : String := "hidraw listener can only be started once"

/-- Starts the listener. A second start crashes, and so does a name that no thread can have. Only then is the system
asked for the thread, which it may refuse. -/
def start (refusal : Option SystemError) (who : Party) (h : Handle σ) : Outcome × Handle σ :=
  if h.listener.isRunning then (.crash (some startedTwice), h)
  else if !canName h.config.threadName then (.crash none, h)
  else
    match refusal with
    | some e => (.fault (.io e), h)
    | none =>
      (.done, { h with listener := .running true (.working .check) }
        |>.note .listener .listenerStarted |>.note who (.listening h.config.threadName))

/-- The first step of a call. Without a listener the read path need not be stolen. -/
def enter (n : Nat) (client : Client) (h : Handle σ) : Call → Turn σ
  | .lockEvents =>
    if h.listener.isRunning then (client.goOn (.steal .grab .permit), h)
    else (client.grant ⟨number, false⟩, h)
  | .unlock =>
    match client.permits with
    | [] => (client.finish .done, h)
    | p :: ps =>
      ({ client with permits := ps }.finish .done,
        if p.exclusive then h.withLock h.gate.lock.release else h)
  | .read permit buffer propagate =>
    match readRefusal? permit buffer with
    | some f => (client.answer ⟨.fault f, buffer⟩, h)
    | none => (client.goOn (.read .poll buffer propagate), h)
  | .request kind r =>
    match r.refusal? kind with
    | some f => (client.answer ⟨.fault f, r.buffer⟩, h)
    | none =>
      if h.listener.isRunning then (client.goOn (.steal .grab (.request r)), h)
      else (client.goOn (.exchange r false), h)
  | .write report =>
    match Fault.checkLength report.length maxBuffer with
    | some f => (client.finish (.fault f), h)
    | none =>
      let (o, g) := h.gate.writeReport (.client n) report
      (client.finish o, h.onGate g)
  | .propagate report =>
    let (o, g) := h.gate.propagateReport (.client n) report
    (client.finish o, h.onGate g)
  | .register handler => (client.finish .done, h.onGate (h.gate.register handler))
  | .start refusal =>
    let (o, h) := h.start refusal (.client n)
    (client.finish o, h)
  | .stop =>
    if h.listener.isRunning then (client.goOn (.halt .clear false), h) else (client.finish .done, h)
  | .close =>
    (client.goOn (if h.listener.isRunning then .halt .clear true else .release), h)

def stolen (client : Client) : Errand → Client
  | .permit => client.grant ⟨number, true⟩
  | .request r => client.goOn (.exchange r true)

def afterRead (client : Client) (buffer : Bytes) (propagate : Bool) : ReadNext → Client
  | .stage s => client.goOn (.read s buffer propagate)
  | .ended (.ok report) => client.answer ⟨.count report.length, report.overlay buffer⟩
  | .ended (.error f) => client.answer ⟨.fault f, buffer⟩
  | .crashed => client.answer ⟨.crash none, buffer⟩

/-- One step of stopping the listener. The bytes that woke it are taken back at the end. -/
def halt? (who : Party) (h : Handle σ) : Halt → Option (Option Halt × Handle σ)
  | .clear =>
    match h.listener with
    | .stopped => some (none, h)
    | .running _ worker => some (some .wake, { h with listener := .running false worker })
  | .wake => some (some .join, h.withLock h.gate.lock.interrupt)
  | .join =>
    match h.listener with
    | .running _ .finished => some (some .drain, { h with listener := .stopped })
    | .running _ .crashed =>
      some (some .drain, { h with listener := .stopped }.note who .listenerCrashed)
    | _ => none
  | .drain => some (none, (h.withLock h.gate.lock.drained).note who .listenerStopped)

/-- One step of client `n`; a client that is idle or has to wait has none. -/
def step? (n : Nat) (client : Client) (h : Handle σ) : Option (Turn σ) :=
  match client.activity with
  | .idle => none
  | .enter c => some (h.enter n client c)
  | .steal s errand =>
    (s.step? (.client n) h.gate.lock).map fun (lock, next) =>
      (match next with
        | some s => client.goOn (.steal s errand)
        | none => stolen client errand, h.withLock lock)
  | .read s buffer propagate =>
    (s.step? (.client n) propagate h.gate).map fun (next, g) =>
      (afterRead client buffer propagate next, h.onGate g)
  | .exchange r exclusive =>
    let (reply, g) := r.perform (.client n) h.gate
    some (client.goOn (.leave exclusive reply), h.onGate g)
  | .leave exclusive reply =>
    some (client.answer reply, if exclusive then h.withLock h.gate.lock.release else h)
  | .halt s closing =>
    (h.halt? (.client n) s).map fun (next, h) =>
      (match next with
        | some s => client.goOn (.halt s closing)
        | none => if closing then client.goOn .release else client.finish .done, h)
  | .release => some (client.finish .done, { h with released := h.released + 1 })

def expire? (client : Client) (h : Handle σ) : Option (Turn σ) :=
  match client.activity with
  | .read s buffer propagate =>
    (s.expire? h.gate).map fun next => (afterRead client buffer propagate next, h)
  | _ => none

end Handle

end HidGate
