import HidGate.Gate

/-!
# Feature requests and output reports

A feature request hands the endpoint a scratch of the buffer's length, so nothing of the buffer reaches it and
nothing beyond the reply reaches the buffer. A feature report is sent as the buffer with its first byte
replaced, and the endpoint has that very buffer, to write to as it likes.
-/

namespace HidGate

inductive Outcome
  | done
  | count (n : Nat)
  | fault (f : Fault)
  | crash (message : Option String)
  deriving DecidableEq, Repr

structure Reply where
  outcome : Outcome
  buffer : Bytes
  deriving DecidableEq, Repr

structure Request where
  direction : Direction
  id : UInt8
  buffer : Bytes
  deriving DecidableEq, Repr

namespace Request

/-- Why a request is refused before anything is done: the length of the buffer comes first. -/
def refusal? (kind : ReportKind) (r : Request) : Option Fault :=
  match Fault.checkLength r.buffer.length maxBuffer with
  | some f => some f
  | none => if kind = .feature then none else some (.unsupported kind)

def scratch (r : Request) : Bytes := (Bytes.filled r.buffer.length 0).set 0 r.id

variable {σ : Type} [Endpoint σ]

def get (who : Party) (r : Request) (g : Gate σ) : Reply × Gate σ :=
  match Endpoint.getFeature r.scratch g.endpoint with
  | (.error e, endpoint) => (⟨.fault (.io e), r.buffer⟩, { g with endpoint })
  | (.ok (claimed, data), endpoint) =>
    let reply : Bytes := (data.overlay r.scratch).take (min claimed r.buffer.length)
    (⟨.count reply.length, reply.overlay r.buffer⟩, { g with endpoint }.note who (.got r.id reply))

def set (who : Party) (r : Request) (g : Gate σ) : Reply × Gate σ :=
  let report := r.buffer.set 0 r.id
  let g := g.note who (.setting r.id report)
  match Endpoint.setFeature report g.endpoint with
  | ((.error e, data), endpoint) => (⟨.fault (.io e), data.overlay report⟩, { g with endpoint })
  | ((.ok n, data), endpoint) => (⟨.count n, data.overlay report⟩, { g with endpoint })

def perform (who : Party) (r : Request) (g : Gate σ) : Reply × Gate σ :=
  match r.direction with
  | .get => r.get who g
  | .set => r.set who g

end Request

namespace Gate

variable {σ : Type} [Endpoint σ]

/-- Writes one output report. A count other than the report's length is a fault. -/
def writeReport (who : Party) (report : Bytes) (g : Gate σ) : Outcome × Gate σ :=
  match Endpoint.write report g.endpoint with
  | (.error e, endpoint) => (.fault (.io e), { g with endpoint })
  | (.ok n, endpoint) =>
    let g := { g with endpoint }
    if n = report.length then (.done, g.note who (.sent report))
    else (.fault (.shortWrite n report.length), g)

def propagateReport (who : Party) (report : Bytes) (g : Gate σ) : Outcome × Gate σ :=
  match g.hand who report with
  | (.accept, g) => (.done, g)
  | (.reject why, g) => (.fault why, g)
  | (.crash, g) => (.crash none, g)

@[simp] theorem writeReport_lock (who : Party) (report : Bytes) (g : Gate σ) :
    (g.writeReport who report).2.lock = g.lock := by
  unfold writeReport
  split
  · rfl
  · dsimp only; split <;> rfl

omit [Endpoint σ] in
@[simp] theorem propagateReport_lock (who : Party) (report : Bytes) (g : Gate σ) :
    (g.propagateReport who report).2.lock = g.lock := by
  have h := hand_lock who report g
  unfold propagateReport
  split <;> (rename_i heq; rw [heq] at h; exact h)

omit [Endpoint σ] in
@[simp] theorem propagateReport_endpoint (who : Party) (report : Bytes) (g : Gate σ) :
    (g.propagateReport who report).2.endpoint = g.endpoint := by
  have h := hand_endpoint who report g
  unfold propagateReport
  split <;> (rename_i heq; rw [heq] at h; exact h)

end Gate

@[simp] theorem Request.perform_lock {σ : Type} [Endpoint σ] (who : Party) (r : Request) (g : Gate σ) :
    (r.perform who g).2.lock = g.lock := by
  unfold perform
  split
  · unfold get; split <;> rfl
  · unfold set; dsimp only; split <;> rfl

end HidGate
