import HidGate.Gate

/-!
# Reading one report

A read polls the endpoint and the interrupt pipe together. An interrupt is taken note of before a report, even
if both are there. Then one report is read, handed to the handler if that is asked, and given back whole: how
much of it fits a buffer is not decided here.
-/

namespace HidGate

inductive ReadStage
  | poll
  | drain
  | fetch
  | hand (report : Bytes)
  deriving DecidableEq, Repr

/-- How a read goes on: with a further stage, to its end, or not at all. -/
inductive ReadNext
  | stage (s : ReadStage)
  | ended (result : Except Fault Bytes)
  | crashed

/-- The fault of a poll that failed: an interrupted system call is an interruption like any other. -/
def Fault.ofPoll (n : Int) : Fault := if n = Errno.interrupted then .interrupted else .io (.tabled n)

namespace Gate

variable {σ : Type} [Endpoint σ]

def isIdle (g : Gate σ) : Bool :=
  (Endpoint.pollFault? g.endpoint).isNone && g.lock.pipe.isEmpty && !Endpoint.ready g.endpoint

def poll? (g : Gate σ) : Option (ReadNext × Gate σ) :=
  match Endpoint.pollFault? g.endpoint with
  | some (n, endpoint) => some (.ended (.error (.ofPoll n)), { g with endpoint })
  | none =>
    if !g.lock.pipe.isEmpty then some (.stage .drain, g)
    else if Endpoint.ready g.endpoint then some (.stage .fetch, g)
    else none

/-- One read of the endpoint. A report is never empty, and an endpoint that claims more than it was given room
for cannot be believed. -/
def fetch? (who : Party) (propagate : Bool) (g : Gate σ) : Option (ReadNext × Gate σ) :=
  (Endpoint.fetch? g.endpoint).map fun (answer, endpoint) =>
    let g := { g with endpoint }
    match answer with
    | .error e => (.ended (.error (.io e)), g)
    | .ok r =>
      if r.claimed = 0 then (.ended (.error (.io (.code Errno.inputOutput))), g)
      else if maxRead < r.claimed then (.crashed, g)
      else
        let g := g.note who (.received r.report)
        if propagate then (.stage (.hand r.report), g) else (.ended (.ok r.report), g)

/-- The handler is given the report. Its refusal is put on record and changes nothing else. -/
def handRead (who : Party) (report : Bytes) (g : Gate σ) : ReadNext × Gate σ :=
  match g.hand who report with
  | (.accept, g) => (.ended (.ok report), g)
  | (.reject why, g) => (.ended (.ok report), g.note who (.rejected why))
  | (.crash, g) => (.crashed, g)

end Gate

namespace ReadStage

variable {σ : Type} [Endpoint σ]

def step? (who : Party) (propagate : Bool) : ReadStage → Gate σ → Option (ReadNext × Gate σ)
  | .poll, g => g.poll?
  | .drain, g => some (.ended (.error .interrupted), { g with lock := g.lock.drained })
  | .fetch, g => g.fetch? who propagate
  | .hand report, g => some (g.handRead who report)

def expire? : ReadStage → Gate σ → Option ReadNext
  | .poll, g => if g.isIdle then some (.ended (.error .timeout)) else none
  | _, _ => none

end ReadStage

end HidGate
