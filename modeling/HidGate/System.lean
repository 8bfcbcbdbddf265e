import HidGate.Turn

/-!
# The system

A handle with its listener and any number of clients. `next` is one atomic step of one of them; the order in
which they step is free. `settle` is one such order, the one in which a lone caller sees the system: clients
go first, then the listener, and a poll runs out of time only when nobody else can step.
-/

namespace HidGate

structure System (σ : Type) where
  handle : Handle σ
  clients : List Client

inductive Move
  /-- An idle client makes a call. -/
  | ask (n : Nat) (c : Call)
  | run (p : Party)
  /-- The time of a poll is up. -/
  | expire (p : Party)

namespace System

variable {σ : Type} [Endpoint σ]

def start (h : Handle σ) (n : Nat) : System σ := ⟨h, List.replicate n .fresh⟩

/-! ## Moves -/

def isQuiet (s : System σ) : Bool := s.clients.all fun c => c.isIdle && c.permits.isEmpty

/-- Whether a call may begin now. Nobody can call a handle that is closed, or that another has for itself. -/
def admits (s : System σ) (c : Call) : Bool :=
  s.handle.released == 0 && !s.clients.any (·.activity.isExclusive) && (!c.isExclusive || s.isQuiet)

def turn (s : System σ) (n : Nat) (t : Turn σ) : System σ := ⟨t.2, s.clients.set n t.1⟩

def work (s : System σ) (wanted : Bool) (t : Worker × Gate σ) : System σ :=
  { s with handle := { s.handle.onGate t.2 with listener := .running wanted t.1 } }

def ask? (s : System σ) (n : Nat) (c : Call) : Option (System σ) :=
  match s.clients[n]? with
  | some client =>
    if client.isIdle && s.admits c then
      some { s with clients := s.clients.set n { client with activity := .enter c, reply := none } }
    else none
  | none => none

def run? (s : System σ) : Party → Option (System σ)
  | .listener =>
    match s.handle.listener with
    | .running wanted (.working d) => (d.step? wanted s.handle.gate).map (s.work wanted)
    | _ => none
  | .client n => s.clients[n]?.bind fun client => (s.handle.step? n client).map (s.turn n)

def expire? (s : System σ) : Party → Option (System σ)
  | .listener =>
    match s.handle.listener with
    | .running wanted (.working d) => (d.expire? s.handle.gate).map (s.work wanted)
    | _ => none
  | .client n => s.clients[n]?.bind fun client => (s.handle.expire? client).map (s.turn n)

def next (m : Move) (s : System σ) : Option (System σ) :=
  match m with
  | .ask n c => s.ask? n c
  | .run p => s.run? p
  | .expire p => s.expire? p

/-! ## One order of moves -/

/-- The moves that need no new call, first choice first. The listener's own poll never runs out of time here:
it would only begin again. -/
def choices (s : System σ) : List Move :=
  let clients := (List.range s.clients.length).map Party.client
  clients.map .run ++ .run .listener :: clients.map .expire

def advance? (s : System σ) : Option (System σ) := s.choices.findSome? (next · s)

def settleFor : Nat → System σ → System σ
  | 0, s => s
  | fuel + 1, s =>
    match s.advance? with
    | some s => settleFor fuel s
    | none => s

/-- No client makes more steps in a call, and no cycle of the listener has more, than this. -/
def longestCall : Nat := 32

def settle (s : System σ) : System σ :=
  settleFor (longestCall * (Endpoint.backlog s.handle.gate.endpoint + 2 * s.clients.length + 2)) s

end System

end HidGate
