import HidGate.System

/-!
# Sessions

A system seen by one caller, client 0, who waits after each call until all has settled. Other clients come in
only to contend for a lock that the caller holds.
-/

namespace HidGate

abbrev Session (σ : Type) := System σ

namespace Session

variable {σ : Type} [Endpoint σ]

def of (h : Handle σ) : Session σ := System.start h 1

def isRunning (s : Session σ) : Bool := s.handle.listener.isRunning

def endpoint (s : Session σ) : σ := s.handle.gate.endpoint

def permits (s : Session σ) : List Permit := (s.clients.head?.map (·.permits)).getD []

def reply? (s : Session σ) (n : Nat) : Option Reply := s.clients[n]?.bind (·.reply)

/-- A call of client 0, up to its reply. There is no result if the call is not admitted or would wait for
ever. -/
def call? (c : Call) (s : Session σ) : Option (Reply × Session σ) := do
  let s := (← s.ask? 0 c).settle
  let r ← reply? s 0
  return (r, s)

def perform (c : Call) (s : Session σ) : Session σ := ((call? c s).map (·.2)).getD s

/-- A read under the permit held, or else under one that is taken and given back for it. -/
def read? (buffer : Bytes) (propagate : Bool) (s : Session σ) : Option (Reply × Session σ) :=
  match permits s with
  | p :: _ => call? (.read p buffer propagate) s
  | [] => do
    let s := perform .lockEvents s
    let (r, s) ← call? (.read ⟨Handle.number, isRunning s⟩ buffer propagate) s
    return (r, perform .unlock s)

/-- A further client makes a call while the caller holds a permit. The first result says whether it waits. -/
def contend (c : Call) (s : Session σ) : Bool × Session σ :=
  let n := s.clients.length
  let s : Session σ := { s with clients := s.clients ++ [.fresh] }
  let s := ((s.ask? n c).getD s).settle
  ((reply? s n).isNone, s)

def contenders (n : Nat) (s : Session σ) : List Reply := (s.clients.drop n).filterMap (·.reply)

def dismiss (n : Nat) (s : Session σ) : Session σ := { s with clients := s.clients.take n }

def alter (f : σ → σ) (s : Session σ) : Session σ :=
  { s with handle := s.handle.onGate { s.handle.gate with endpoint := f s.handle.gate.endpoint } }.settle

/-- The reader of the latest broadcasting handler takes a report; `none` if there was no such handler. -/
def receive? (s : Session σ) : Option (Receipt Bytes × Session σ) := do
  let (r, feed) ← (← s.handle.gate.feed).receive? ()
  return (r, { s with handle := s.handle.onGate { s.handle.gate with feed := some feed } })

def takeJournal (s : Session σ) : List Entry × Session σ :=
  (s.handle.gate.journal, { s with handle := s.handle.onGate { s.handle.gate with journal := [] } })

end Session

end HidGate
