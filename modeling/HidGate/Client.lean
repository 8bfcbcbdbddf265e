import HidGate.Gate.Exchange
import HidGate.Gate.Read

/-!
# Clients

A client makes one call at a time. A call is a sequence of steps, and between two of them anybody else may
step; this module says what the calls are and where in one a client can be.
-/

namespace HidGate

/-! ## Calls -/

inductive Call
  | lockEvents
  /-- Gives back the permit had last. -/
  | unlock
  | read (permit : Permit) (buffer : Bytes) (propagate : Bool)
  | request (kind : ReportKind) (r : Request)
  | write (report : Bytes)
  | propagate (report : Bytes)
  | register (handler : Option Handler)
  /-- The system may refuse the thread that is asked for. -/
  | start (refusal : Option SystemError := none)
  | stop
  | close

def Call.isExclusive : Call → Bool
  | .start _ | .stop | .close => true
  | _ => false

/-! ## Where a client is -/

inductive Errand
  | permit
  | request (r : Request)

inductive Halt
  | clear
  | wake
  | join
  | drain
  deriving DecidableEq, Repr

inductive Activity
  | idle
  | enter (c : Call)
  | steal (s : Steal) (errand : Errand)
  | read (s : ReadStage) (buffer : Bytes) (propagate : Bool)
  | exchange (r : Request) (exclusive : Bool)
  /-- A request is answered and still holds what it locked. -/
  | leave (exclusive : Bool) (reply : Reply)
  | halt (s : Halt) (closing : Bool)
  | release

namespace Activity

def isIdle : Activity → Bool
  | .idle => true
  | _ => false

def isExclusive : Activity → Bool
  | .enter c => c.isExclusive
  | .halt .. | .release => true
  | _ => false

end Activity

/-- A client: what it does, the permits it holds, latest first, and the reply to its latest call. -/
structure Client where
  activity : Activity
  permits : List Permit
  reply : Option Reply

namespace Client

def fresh : Client := ⟨.idle, [], none⟩

def isIdle (c : Client) : Bool := c.activity.isIdle

def goOn (a : Activity) (c : Client) : Client := { c with activity := a }

def answer (r : Reply) (c : Client) : Client := { c with activity := .idle, reply := some r }

def finish (o : Outcome) (c : Client) : Client := c.answer ⟨o, []⟩

def grant (p : Permit) (c : Client) : Client := { c with permits := p :: c.permits }.finish .done

@[simp] theorem goOn_activity (a : Activity) (c : Client) : (c.goOn a).activity = a := rfl

@[simp] theorem goOn_permits (a : Activity) (c : Client) : (c.goOn a).permits = c.permits := rfl

@[simp] theorem answer_activity (r : Reply) (c : Client) : (c.answer r).activity = .idle := rfl

@[simp] theorem answer_permits (r : Reply) (c : Client) : (c.answer r).permits = c.permits := rfl

@[simp] theorem finish_activity (o : Outcome) (c : Client) : (c.finish o).activity = .idle := rfl

@[simp] theorem finish_permits (o : Outcome) (c : Client) : (c.finish o).permits = c.permits := rfl

@[simp] theorem grant_activity (p : Permit) (c : Client) : (c.grant p).activity = .idle := rfl

@[simp] theorem grant_permits (p : Permit) (c : Client) : (c.grant p).permits = p :: c.permits := rfl

end Client

end HidGate
